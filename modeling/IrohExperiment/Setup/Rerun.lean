/-
# A setup that can be run again (`worker/scripts/setup-zone.mjs`)

The setup reads before it writes: what stands in its way is found before the first change.
From then on it may fail at any request; the rules that do not match stay where they are,
and a later run that nothing fails completes the plan.  A run that comes to its end leaves
nothing to do: the next one changes nothing, whatever becomes of its requests.

The main result is `setUp_spec`, for every zone, every plan and every fate of the requests.
-/
import IrohExperiment.Setup.Phases

namespace IrohExperiment.Setup

open Script

variable {α ρ : Type} {env : Env} {plan : Plan α} {z z' z'' : Zone α} {w w' : World α}

/-! ## One request -/

/-- The world after a request that leaves the zone as `z`. -/
def World.called (w : World α) (c : Call) (z : Zone α) : World α :=
  { w with zone := z, calls := w.calls ++ [c] }

/-- The zone's own responses are taken at their word. -/
theorem serve_accepted (issuer : Issuer) (z : Zone α) (r : Request α ρ) :
    (z.serve issuer r).1.absent r.call = true ∧ (z.serve issuer r).1.result = none ∨
      (z.serve issuer r).1.absent r.call = false ∧ (z.serve issuer r).1.ok = true ∧
        (z.serve issuer r).1.success = true := by
  cases r with
  | entrypoint phase =>
    cases hs : z.rulesets phase with
    | none =>
      refine .inl ⟨?_, by simp [Zone.serve, hs]⟩
      have hpath : "/entrypoint".toList.isSuffixOf
          ("/rulesets/phases/" ++ phase ++ "/entrypoint").toList = true := by
        rw [List.isSuffixOf_iff_suffix, String.toList_append]
        exact List.suffix_append _ _
      simp only [Zone.serve, hs, Response.absent, Request.call, hpath]
      rfl
    | some s => exact .inr (by simp [Zone.serve, hs, Response.absent, Response.ok])
  | _ => exact .inr (by simp [Zone.serve, Response.absent, Response.ok])

theorem ends_taken_served (issuer : Issuer) (z : Zone α) (r : Request α ρ)
    {Q : Option ρ → World α → Prop} {E : Fault → World α → Prop}
    (h : Q (z.serve issuer r).1.result w) :
    Ends (taken r.call (z.serve issuer r).1) w Q E := by
  unfold taken
  rcases serve_accepted issuer z r with ⟨habsent, hresult⟩ | ⟨habsent, hok, hsuccess⟩
  · rw [if_pos habsent]
    exact hresult ▸ h
  · rw [if_neg (by simp [habsent]), if_neg (by simp [hok, hsuccess])]
    exact h

theorem ends_taken_refused {c : Call} {r : Response Empty} (hr : r.refuses c = true)
    {Q : Option ρ → World α → Prop} {E : Fault → World α → Prop} (h : ∀ error, E error w) :
    Ends (taken c (r.lacking : Response ρ)) w Q E := by
  simp only [Response.refuses, Bool.and_eq_true, Bool.not_eq_true', Bool.and_eq_false_iff] at hr
  have habsent : (r.lacking : Response ρ).absent c = false := hr.1
  have hbad : (r.lacking : Response ρ).ok = false ∨ (r.lacking : Response ρ).success = false := hr.2
  unfold taken
  rw [if_neg (by simp [habsent]), if_pos (by simpa using hbad)]
  exact h _

/-- `api`: the zone's result, or an exception and the zone may have acted all the same. -/
theorem ends_api {r : Request α ρ} {Q : Option ρ → World α → Prop} {E : Fault → World α → Prop}
    (hserved : env.network.fate w.calls.length r.call = .served →
      Q (w.zone.serve env.issuer r).1.result (w.called r.call (w.zone.serve env.issuer r).2))
    (hbroken : env.network.fate w.calls.length r.call ≠ .served → ∀ error z,
      z = w.zone ∨ z = (w.zone.serve env.issuer r).2 → E error (w.called r.call z)) :
    Ends (api env r) w Q E := by
  unfold api
  rw [ends_bind]
  unfold Ends
  cases hfate : env.network.fate w.calls.length r.call with
  | served =>
    have hrun : (fetch env r).run w = .ok (some (w.zone.serve env.issuer r).1)
        (w.called r.call (w.zone.serve env.issuer r).2) := by
      simp [EStateM.run, fetch, hfate, World.called]
    rw [hrun]
    exact ends_taken_served env.issuer w.zone r (hserved hfate)
  | broken applied answer =>
    have hrun : (fetch env r).run w = .ok (answer.map Response.lacking)
        (w.called r.call (if applied then (w.zone.serve env.issuer r).2 else w.zone)) := by
      simp [EStateM.run, fetch, hfate, World.called]
    have hne : env.network.fate w.calls.length r.call ≠ .served := by simp [hfate]
    have hends := fun error =>
      hbroken hne error (if applied then (w.zone.serve env.issuer r).2 else w.zone)
      (by cases applied <;> simp)
    rw [hrun]
    cases answer with
    | none => exact hends .unanswered
    | some a => exact ends_taken_refused (env.network.refuses _ _ _ _ hfate) hends

/-! ## Reading -/

/-- The request that reads a phase. -/
def Entry.read (e : Entry α) : Call := (Request.entrypoint e.phase : Request α _).call

/-- The requests that read what a plan is about, in order. -/
def Plan.reads (plan : Plan α) : List Call :=
  (Request.zone : Request α _).call :: (Request.http3 : Request α _).call ::
    plan.rules.map Entry.read

/-- What keeps a setup from making any change. -/
inductive Hindered (env : Env) (plan : Plan α) (z : Zone α) : Prop where
  /-- A read fails. -/
  | read (i : ℕ) (c : Call) (hread : plan.reads[i]? = some c)
      (hfails : env.network.fate i c ≠ .served)
  | inactive (hstatus : z.status ≠ "active")
  | notSubdomain (hname : ¬ ("." ++ z.name).toList <:+ plan.hostname.toList)
  /-- More than one rule of a phase matches. -/
  | duplicate (e : Entry α) (he : e ∈ plan.rules)
      (hmany : 1 < ((z.rules e.phase).filter e.matches).length)

/-- Nothing but reads has been requested. -/
structure World.Reads (w w' : World α) : Prop where
  zone : w'.zone = w.zone
  snapshot : w'.snapshot = w.snapshot
  calls : ∃ made, w'.calls = w.calls ++ made ∧ ∀ c ∈ made, c.method = "GET"

namespace World.Reads

theorem refl (w : World α) : World.Reads w w := ⟨rfl, rfl, [], by simp, by simp⟩

theorem trans {w'' : World α} (h : World.Reads w w') (h' : World.Reads w' w'') :
    World.Reads w w'' := by
  obtain ⟨made, hmade, hget⟩ := h.calls
  obtain ⟨made', hmade', hget'⟩ := h'.calls
  refine ⟨h'.zone.trans h.zone, h'.snapshot.trans h.snapshot, made ++ made', ?_, ?_⟩
  · rw [hmade', hmade, List.append_assoc]
  · intro c hc
    rcases List.mem_append.mp hc with hc | hc
    · exact hget c hc
    · exact hget' c hc

theorem called {c : Call} (hc : c.method = "GET") (w : World α) :
    World.Reads w (w.called c w.zone) :=
  ⟨rfl, rfl, [c], rfl, by simp [hc]⟩

/-- A run that has only read has only made requests that read. -/
theorem method (h : World.Reads w w') (hw : w.calls = []) : ∀ c ∈ w'.calls, c.method = "GET" := by
  obtain ⟨made, hmade, hget⟩ := h.calls
  rw [hmade, hw]
  exact hget

end World.Reads

/-- A request that reads. -/
theorem ends_api_read {r : Request α ρ} (hget : r.call.method = "GET")
    (hzone : (w.zone.serve env.issuer r).2 = w.zone)
    {Q : Option ρ → World α → Prop} {E : Fault → World α → Prop}
    (hserved : env.network.fate w.calls.length r.call = .served → ∀ w', World.Reads w w' →
      w'.calls = w.calls ++ [r.call] → Q (w.zone.serve env.issuer r).1.result w')
    (hbroken : env.network.fate w.calls.length r.call ≠ .served → ∀ error w', World.Reads w w' →
      E error w') : Ends (api env r) w Q E := by
  refine ends_api (fun hfate => ?_) fun hfate error z hz => ?_
  · rw [hzone]
    exact hserved hfate _ (.called hget w) rfl
  · have hz' : z = w.zone := hz.elim id fun h => h.trans hzone
    rw [hz']
    exact hbroken hfate error _ (.called hget w)

theorem serve_entrypoint (issuer : Issuer) (z : Zone α) (phase : String) :
    (z.serve issuer (.entrypoint phase)).1.result = z.rulesets phase ∧
      (z.serve issuer (.entrypoint phase)).2 = z := by
  cases h : z.rulesets phase with
  | none => simp [Zone.serve, h]
  | some s => simp [Zone.serve, h]

/-- Reading the phases finds each as it is, unless a read fails or rules are duplicated. -/
theorem ends_readPhases (env : Env) (entries : List (Entry α)) (w : World α) :
    Ends (readPhases env entries) w
      (fun phases w' => World.Reads w w' ∧ phases = entries.map (survey w.zone) ∧
        (∀ e ∈ entries, w.zone.Single e) ∧ ∀ i c, (entries.map Entry.read)[i]? = some c →
          env.network.fate (w.calls.length + i) c = .served)
      fun _ w' => World.Reads w w' ∧ ((∃ e ∈ entries, ¬ w.zone.Single e) ∨
        ∃ i c, (entries.map Entry.read)[i]? = some c ∧
          env.network.fate (w.calls.length + i) c ≠ .served) := by
  induction entries generalizing w with
  | nil => exact ⟨.refl w, rfl, by simp, by simp⟩
  | cons e rest ih =>
    unfold readPhases
    rw [ends_bind]
    refine ends_api_read rfl ?_ (fun hfate w₁ hreads hcalls => ?_) fun hfate _ w₁ hreads => ?_
    · exact (serve_entrypoint env.issuer w.zone e.phase).2
    · rw [(serve_entrypoint env.issuer w.zone e.phase).1]
      dsimp only
      split_ifs with hmany
      · exact ⟨hreads, .inl ⟨e, List.mem_cons_self, Nat.not_le.mpr hmany⟩⟩
      · have hsingle : w.zone.Single e := Nat.not_lt.mp hmany
        have hlength : w₁.calls.length = w.calls.length + 1 := by rw [hcalls]; simp
        have hih := ih w₁
        rw [hreads.zone, hlength] at hih
        rw [ends_bind]
        refine hih.mono (fun phases w₂ h => ?_) fun _ w₂ h => ?_
        · obtain ⟨hreads', rfl, hsingles, hfates⟩ := h
          refine ⟨hreads.trans hreads', rfl, ?_, fun i c hc => ?_⟩
          · exact List.forall_mem_cons.mpr ⟨hsingle, hsingles⟩
          · cases i with
            | zero =>
              obtain rfl := Option.some.inj hc
              exact hfate
            | succ i =>
              rw [show w.calls.length + (i + 1) = w.calls.length + 1 + i by omega]
              exact hfates i c hc
        · obtain ⟨hreads', ⟨e', he', hmany'⟩ | ⟨i, c, hc, hfails⟩⟩ := h
          · exact ⟨hreads.trans hreads', .inl ⟨e', List.mem_cons_of_mem e he', hmany'⟩⟩
          · refine ⟨hreads.trans hreads', .inr ⟨i + 1, c, hc, ?_⟩⟩
            rwa [show w.calls.length + (i + 1) = w.calls.length + 1 + i by omega]
    · exact ⟨hreads, .inr ⟨0, _, rfl, hfate⟩⟩

/-- Reading the state finds it as it is, unless something stands in the way. -/
theorem ends_readState (plan : Plan α) (hw : w.calls = []) :
    Ends (readState env plan) w
      (fun found w' => World.Reads w w' ∧ ¬ Hindered env plan w.zone ∧
        found = (some w.zone.http3, plan.rules.map (survey w.zone)))
      fun _ w' => World.Reads w w' ∧ Hindered env plan w.zone := by
  unfold readState
  rw [ends_bind]
  refine ends_api_read rfl rfl (fun hzone w₁ hreads₁ hcalls₁ => ?_) fun hfate _ w₁ hreads => ?_
  · rw [hw] at hzone hcalls₁
    show Ends (if _ then _ else _) w₁ _ _
    split_ifs with hrejects
    · refine ⟨hreads₁, ?_⟩
      rcases hrejects with hinactive | hname
      · exact .inactive hinactive
      · exact .notSubdomain hname
    · obtain ⟨hactive, hname⟩ := not_or.mp hrejects
      rw [ends_bind]
      refine ends_api_read rfl rfl (fun hhttp3 w₂ hreads₂ hcalls₂ => ?_) fun hfate _ w₂ hreads => ?_
      · rw [hcalls₁] at hhttp3 hcalls₂
        rw [ends_bind]
        have hphases := ends_readPhases env plan.rules w₂
        have hzone₂ : w₂.zone = w.zone := hreads₂.zone.trans hreads₁.zone
        rw [hzone₂, hcalls₂] at hphases
        refine hphases.mono (fun phases w₃ h => ?_) fun _ w₃ h => ?_
        · obtain ⟨hreads₃, rfl, hsingles, hfates⟩ := h
          refine ⟨(hreads₁.trans hreads₂).trans hreads₃, fun hhindered => ?_, ?_⟩
          · cases hhindered with
            | read i c hread hfails =>
              match i, hread with
              | 0, hread => exact hfails (Option.some.inj hread ▸ hzone)
              | 1, hread => exact hfails (Option.some.inj hread ▸ hhttp3)
              | i + 2, hread =>
                have hserved := hfates i c hread
                rw [Nat.add_comm] at hserved
                exact hfails hserved
            | inactive hstatus => exact hactive hstatus
            | notSubdomain h => exact hname h
            | duplicate e he hmany => exact Nat.not_lt.mpr (hsingles e he) hmany
          · show (some w₁.zone.http3, _) = _
            rw [hreads₁.zone]
        · obtain ⟨hreads₃, ⟨e, he, hmany⟩ | ⟨i, c, hc, hfails⟩⟩ := h
          · exact ⟨(hreads₁.trans hreads₂).trans hreads₃, .duplicate e he (Nat.not_le.mp hmany)⟩
          · refine ⟨(hreads₁.trans hreads₂).trans hreads₃, .read (i + 2) c hc ?_⟩
            rwa [Nat.add_comm]
      · rw [hcalls₁] at hfate
        exact ⟨hreads₁.trans hreads, .read 1 _ rfl hfate⟩
  · rw [hw] at hfate
    exact ⟨hreads, .read 0 _ rfl hfate⟩

/-! ## Writing -/

/-- Everything but the planned rules is where it was. -/
structure Framed (plan : Plan α) (z z' : Zone α) : Prop where
  name : z'.name = z.name
  status : z'.status = z.status
  /-- A phase without a planned rule is unchanged. -/
  outside : ∀ q, (∀ e ∈ plan.rules, e.phase ≠ q) → z'.rulesets q = z.rulesets q
  /-- In any other, the rules that do not match keep their places, and no other appears. -/
  retains : ∀ e ∈ plan.rules, Retains e.matches (z.rules e.phase) (z'.rules e.phase)

/-- Every planned rule is the one that matches in its phase, and HTTP/3 needs no change. -/
structure Completed (plan : Plan α) (z : Zone α) : Prop where
  http3 : z.http3 = "on" ∨ z.http3 = plan.http3
  settled : ∀ e ∈ plan.rules, z.Settled e

theorem Framed.refl (plan : Plan α) (z : Zone α) : Framed plan z z :=
  ⟨rfl, rfl, fun _ _ => rfl, fun _ _ => .refl _ _⟩

theorem Framed.trans (h : Framed plan z z') (h' : Framed plan z' z'') : Framed plan z z'' where
  name := h'.name.trans h.name
  status := h'.status.trans h.status
  outside q hq := (h'.outside q hq).trans (h.outside q hq)
  retains e he := (h.retains e he).trans (h'.retains e he)

/-- The zone may be set up, and is again after every change that the setup makes. -/
structure Kept (plan : Plan α) (z z' : Zone α) : Prop where
  framed : Framed plan z z'
  single : ∀ e ∈ plan.rules, z'.Single e

/-- Work on a planned phase. -/
theorem Kept.worked {e : Entry α} (hdistinct : (plan.rules.map Entry.phase).Nodup)
    (h : Kept plan z z') (he : e ∈ plan.rules) (hw : Zone.Worked e z' z'') : Kept plan z z'' := by
  have hother : ∀ e' ∈ plan.rules, e' ≠ e → z''.rulesets e'.phase = z'.rulesets e'.phase :=
    fun e' he' hne => hw.elsewhere e'.phase fun hphase =>
      hne (List.inj_on_of_nodup_map hdistinct he' he hphase)
  refine ⟨h.framed.trans ⟨hw.name, hw.status, fun q hq => hw.elsewhere q (hq e he).symm, ?_⟩, ?_⟩
  · intro e' he'
    by_cases heq : e' = e
    · exact heq ▸ hw.retains
    · rw [Zone.rules_of_rulesets (hother e' he' heq)]
      exact .refl _ _
  · intro e' he'
    by_cases heq : e' = e
    · exact heq ▸ hw.single
    · unfold Zone.Single
      rw [Zone.rules_of_rulesets (hother e' he' heq)]
      exact h.single e' he'

/-- Turning HTTP/3 on. -/
theorem Kept.setHttp3 (h : Kept plan z z') (value : String) : Kept plan z (z'.setHttp3 value) :=
  ⟨⟨h.framed.name, h.framed.status, h.framed.outside, h.framed.retains⟩, h.single⟩

/-- Some request of some run is not served. -/
def Env.Fails (env : Env) : Prop := ∃ n c, env.network.fate n c ≠ .served

/-- A change: it is made, or the run ends and it has been made or not. -/
theorem ends_api_write {r : Request α ρ} {Q : Option ρ → World α → Prop}
    {E : Fault → World α → Prop} (hmade : ∀ x w', w'.zone = (w.zone.serve env.issuer r).2 → Q x w')
    (hbroken : env.Fails → ∀ error w', w'.zone = w.zone ∨ w'.zone = (w.zone.serve env.issuer r).2 →
      E error w') : Ends (api env r) w Q E :=
  ends_api (fun _ => hmade _ _ rfl) fun hfate error _ hz => hbroken ⟨_, _, hfate⟩ error _ hz

theorem configurePhase_eq (env : Env) (p : Phase α) : configurePhase env p =
    (api env p.request >>= fun _ => print ("Configured " ++ p.phase)) := by
  unfold configurePhase Phase.request
  cases p.existing with
  | none => rfl
  | some s => cases p.matched <;> rfl

/-- The rule of a phase is brought up to date, or the run ends. -/
theorem ends_configurePhase (e : Entry α) {Q : PUnit → World α → Prop} {E : Fault → World α → Prop}
    (hmade : ∀ w', w'.zone = w.zone.brought env.issuer e → Q ⟨⟩ w')
    (hbroken : env.Fails → ∀ error w', w'.zone = w.zone ∨ w'.zone = w.zone.brought env.issuer e →
      E error w') : Ends (configurePhase env (survey w.zone e)) w Q E := by
  rw [configurePhase_eq, ends_bind]
  exact ends_api_write (fun _ _ hw' => hmade _ hw') hbroken

/-- What the loop over the phases has done when `rest` is left to do. -/
structure Looping (plan : Plan α) (z : Zone α) (rest : List (Phase α)) (w : World α) : Prop where
  kept : Kept plan z w.zone
  http3 : w.zone.http3 = "on" ∨ w.zone.http3 = plan.http3
  split : ∃ before after, plan.rules = before ++ after ∧ rest = after.map (survey w.zone) ∧
    ∀ e ∈ before, w.zone.Settled e

/-- The loop over the phases completes the plan, unless a request fails. -/
theorem ends_phases (hdistinct : (plan.rules.map Entry.phase).Nodup) {phases : List (Phase α)}
    (h : Looping plan z phases w) :
    Ends (phases.forM (configurePhase env)) w
      (fun _ w' => Framed plan z w'.zone ∧ Completed plan w'.zone)
      fun _ w' => env.Fails ∧ Kept plan z w'.zone := by
  refine (ends_forM (I := Looping plan z) (fun p rest w hp => ?_) phases h).mono (fun _ w' h => ?_)
    fun _ _ h => h
  · obtain ⟨before, after, hplan, hrest, hsettled⟩ := hp.split
    cases after with
    | nil => cases hrest
    | cons e after =>
      obtain ⟨rfl, rfl⟩ := List.cons.inj hrest
      have he : e ∈ plan.rules := by simp [hplan]
      obtain ⟨hworked, hdone⟩ := brought_spec env.issuer (hp.kept.single e he)
      have hkept := hp.kept.worked hdistinct he hworked
      refine ends_configurePhase e (fun w' hw' => ?_) fun hfails _ w' hw' => ⟨hfails, ?_⟩
      · have hdisjoint : ∀ e' ∈ before ++ after, e'.phase ≠ e.phase := by
          rw [hplan, List.map_append, List.map_cons] at hdistinct
          have hcons := List.nodup_cons.mp (List.nodup_middle.mp hdistinct)
          intro e' he' hphase
          refine hcons.1 ?_
          rw [← List.map_append, ← hphase]
          exact List.mem_map_of_mem he'
        have hother : ∀ e' ∈ before ++ after, w'.zone.rulesets e'.phase =
            w.zone.rulesets e'.phase :=
          fun e' he' => hw' ▸ hworked.elsewhere e'.phase (hdisjoint e' he')
        refine ⟨hw' ▸ hkept, ?_, before ++ [e], after, by simp [hplan], ?_, ?_⟩
        · rw [hw', hworked.http3]
          exact hp.http3
        · refine List.map_congr_left fun e' he' => (survey_congr (hother e' ?_)).symm
          exact List.mem_append_right before he'
        · intro e' he'
          rcases List.mem_append.mp he' with he' | he'
          · exact (Zone.settled_congr (hother e' (List.mem_append_left after he'))).mpr
              (hsettled e' he')
          · rw [List.mem_singleton.mp he', hw']
            exact hdone
      · rcases hw' with hw' | hw'
        · exact hw' ▸ hp.kept
        · exact hw' ▸ hkept
  · obtain ⟨before, after, hplan, hrest, hsettled⟩ := h.split
    obtain rfl : after = [] := List.map_eq_nil_iff.mp hrest.symm
    rw [List.append_nil] at hplan
    exact ⟨h.kept.framed, h.http3, hplan ▸ hsettled⟩

theorem ends_writeFile (snapshot : Snapshot α) : Ends (writeFile env snapshot) w
    (fun _ w' => w'.zone = w.zone) fun error w' =>
      w' = w ∧ (env.disk = none → error = .disk "EEXIST") := by
  unfold Ends
  cases hdisk : env.disk with
  | some code =>
    have hrun : (writeFile env snapshot).run w = .error (.disk code) w := by
      simp [EStateM.run, writeFile, hdisk]
    rw [hrun]
    exact ⟨rfl, nofun⟩
  | none =>
    by_cases hfile : w.snapshot.isSome = true
    · have hrun : (writeFile env snapshot).run w = .error (.disk "EEXIST") w := by
        simp [EStateM.run, writeFile, hdisk, hfile]
      rw [hrun]
      exact ⟨rfl, fun _ => rfl⟩
    · have hrun : (writeFile env snapshot).run w = .ok ⟨⟩ { w with snapshot := some snapshot } := by
        simp [EStateM.run, writeFile, hdisk, hfile]
      rw [hrun]

/-- A file that is there is no reason to stop. -/
theorem ends_takeSnapshot {snapshot : Snapshot α} {Q : PUnit → World α → Prop}
    {E : Fault → World α → Prop} (hgoes : ∀ w', w'.zone = w.zone → Q ⟨⟩ w')
    (hstops : env.disk ≠ none → ∀ error, E error w) : Ends (takeSnapshot env snapshot) w Q E := by
  unfold takeSnapshot
  rw [ends_tryCatch]
  refine (ends_writeFile snapshot).mono (fun _ w' hw' => hgoes w' hw') fun error w' herror => ?_
  obtain ⟨rfl, hexists⟩ := herror
  split_ifs with herror
  · exact hstops (fun hdisk => herror (hexists hdisk)) error
  · exact hgoes w' rfl

/-- HTTP/3 is on and stays so, or is set as planned. -/
theorem ends_enableHttp3 {Q : PUnit → World α → Prop} {E : Fault → World α → Prop}
    (hon : w.zone.http3 = "on" → Q ⟨⟩ w)
    (hset : w.zone.http3 ≠ "on" → ∀ w', w'.zone = w.zone.setHttp3 plan.http3 → Q ⟨⟩ w')
    (hbroken : w.zone.http3 ≠ "on" → env.Fails → ∀ error w',
      w'.zone = w.zone ∨ w'.zone = w.zone.setHttp3 plan.http3 → E error w') :
        Ends (enableHttp3 env plan (some w.zone.http3)) w Q E := by
  show Ends (if w.zone.http3 ≠ "on" then _ else _) w Q E
  split_ifs with hvalue
  · rw [ends_bind]
    exact ends_api_write (fun _ w' hw' => hset hvalue w' hw') (hbroken hvalue)
  · exact hon (not_not.mp hvalue)

/-! ## The whole setup -/

/-- How the setup ends, and what the zone is then. -/
theorem ends_configureZone (hdistinct : (plan.rules.map Entry.phase).Nodup) {token : Option String}
    (hw : w.calls = []) :
    Ends (configureZone env plan token) w
      (fun _ w' => token.getD "" ≠ "" ∧ ¬ Hindered env plan w.zone ∧ Framed plan w.zone w'.zone ∧
        Completed plan w'.zone)
      fun _ w' => (token.getD "" = "" ∨ Hindered env plan w.zone) ∧ World.Reads w w' ∨
        token.getD "" ≠ "" ∧ ¬ Hindered env plan w.zone ∧ (env.Fails ∨ env.disk ≠ none) ∧
          Kept plan w.zone w'.zone := by
  unfold configureZone
  split_ifs with htoken
  · exact .inl ⟨.inl htoken, .refl w⟩
  rw [ends_bind]
  refine (ends_readState plan hw).mono (fun found w₁ h => ?_) fun _ w₁ h => .inl ⟨.inr h.2, h.1⟩
  obtain ⟨hreads, hclear, rfl⟩ := h
  -- the survey has refused duplicates
  have hsingle : ∀ e ∈ plan.rules, w.zone.Single e := fun e he =>
    Nat.not_lt.mp fun hmany => hclear (.duplicate e he hmany)
  have hkept : Kept plan w.zone w.zone := ⟨.refl _ _, hsingle⟩
  dsimp only
  rw [ends_bind]
  refine ends_takeSnapshot (fun w₂ hw₂ => ?_) fun hdisk _ =>
    .inr ⟨htoken, hclear, .inr hdisk, hreads.zone ▸ hkept⟩
  have hzone : w.zone = w₂.zone := (hw₂.trans hreads.zone).symm
  rw [ends_bind, hzone]
  rw [hzone] at hkept
  -- the loop starts with every phase still to go
  have hgoes : ∀ w₃ : World α, Kept plan w₂.zone w₃.zone → w₃.zone.rulesets = w₂.zone.rulesets →
      (w₃.zone.http3 = "on" ∨ w₃.zone.http3 = plan.http3) →
      Looping plan w₂.zone (plan.rules.map (survey w₂.zone)) w₃ := by
    intro w₃ hkept₃ hrulesets hhttp3
    refine ⟨hkept₃, hhttp3, [], plan.rules, rfl, List.map_congr_left fun e _ => ?_, by simp⟩
    exact survey_congr (congrFun hrulesets.symm e.phase)
  have hloop : ∀ w₃ : World α, Looping plan w₂.zone (plan.rules.map (survey w₂.zone)) w₃ →
      Ends ((plan.rules.map (survey w₂.zone)).forM (configurePhase env) >>= fun _ =>
          print "Zone configured. The actual H3 response and source port still need a live probe.")
            w₃
        (fun _ w' => token.getD "" ≠ "" ∧ ¬ Hindered env plan w₂.zone ∧
          Framed plan w₂.zone w'.zone ∧ Completed plan w'.zone)
        fun _ w' => (token.getD "" = "" ∨ Hindered env plan w₂.zone) ∧ World.Reads w w' ∨
          token.getD "" ≠ "" ∧ ¬ Hindered env plan w₂.zone ∧ (env.Fails ∨ env.disk ≠ none) ∧
            Kept plan w₂.zone w'.zone := by
    intro w₃ hlooping
    rw [ends_bind]
    refine (ends_phases hdistinct hlooping).mono (fun _ w' h => ?_) fun _ w' h => ?_
    · exact ⟨htoken, hzone ▸ hclear, h⟩
    · exact .inr ⟨htoken, hzone ▸ hclear, .inl h.1, h.2⟩
  refine ends_enableHttp3 (fun hon => ?_) (fun _ w₃ hw₃ => ?_) fun _ hfails _ w₃ hw₃ => ?_
  · exact hloop w₂ (hgoes w₂ hkept rfl (.inl hon))
  · refine hloop w₃ (hgoes w₃ ?_ ?_ (.inr ?_))
    · exact hw₃ ▸ hkept.setHttp3 plan.http3
    · rw [hw₃]
      rfl
    · rw [hw₃]
      rfl
  · refine .inr ⟨htoken, hzone ▸ hclear, .inl hfails, ?_⟩
    rcases hw₃ with hw₃ | hw₃
    · exact hw₃ ▸ hkept
    · exact hw₃ ▸ hkept.setHttp3 plan.http3

/-- Where every phase is settled, the loop over them changes nothing. -/
theorem ends_phases_settled (h : ∀ e ∈ plan.rules, z.Settled e) (hw : w.zone = z) :
    Ends ((plan.rules.map (survey z)).forM (configurePhase env)) w (fun _ w' => w'.zone = z)
      fun _ w' => w'.zone = z := by
  have hfound : ∀ p ∈ plan.rules.map (survey z), ∃ e ∈ plan.rules, p = survey z e := by
    intro p hp
    obtain ⟨e, he, rfl⟩ := List.mem_map.mp hp
    exact ⟨e, he, rfl⟩
  refine (ends_forM (I := fun rest w => w.zone = z ∧ ∀ p ∈ rest, ∃ e ∈ plan.rules, p = survey z e)
    (fun p rest w hp => ?_) _ ⟨hw, hfound⟩).mono (fun _ _ hw' => hw'.1) fun _ _ he => he
  obtain ⟨rfl, hrest⟩ := hp
  obtain ⟨e, he, rfl⟩ := hrest p List.mem_cons_self
  have hbrought : w.zone.brought env.issuer e = w.zone := brought_of_settled (h e he)
  refine ends_configurePhase e (fun w' hw' => ⟨hw'.trans hbrought, fun p hp => ?_⟩) fun _ _
    w' hw' => ?_
  · exact hrest p (List.mem_cons_of_mem _ hp)
  · exact hw'.elim id fun hw' => hw'.trans hbrought

/-- Where the plan is completed, no request that the setup makes changes the zone. -/
theorem ends_completed (h : Completed plan w.zone) (hw : w.calls = []) (token : Option String) :
    Ends (configureZone env plan token) w (fun _ w' => w'.zone = w.zone)
      fun _ w' => w'.zone = w.zone := by
  unfold configureZone
  split_ifs
  · exact rfl
  rw [ends_bind]
  refine (ends_readState plan hw).mono (fun found w₁ hread => ?_) fun _ _ hread => hread.1.zone
  obtain ⟨hreads, -, rfl⟩ := hread
  rw [← hreads.zone] at h ⊢
  dsimp only
  rw [ends_bind]
  refine ends_takeSnapshot (fun w₂ hw₂ => ?_) fun _ _ => rfl
  rw [← hw₂] at h ⊢
  have hsame : w₂.zone.http3 ≠ "on" → w₂.zone.setHttp3 plan.http3 = w₂.zone := fun hoff =>
    Zone.ext rfl rfl (h.http3.resolve_left hoff).symm rfl rfl
  rw [ends_bind]
  have hloop : ∀ w₃ : World α, w₃.zone = w₂.zone →
      Ends ((plan.rules.map (survey w₂.zone)).forM (configurePhase env) >>= fun _ =>
          print "Zone configured. The actual H3 response and source port still need a live probe.")
            w₃
        (fun _ w' => w'.zone = w₂.zone) fun _ w' => w'.zone = w₂.zone := by
    intro w₃ hw₃
    rw [ends_bind]
    exact (ends_phases_settled h.settled hw₃).mono (fun _ _ hw' => hw') fun _ _ hw' => hw'
  refine ends_enableHttp3 (fun _ => hloop w₂ rfl) (fun hoff w₃ hw₃ => ?_) fun hoff _ _ w₃ hw₃ => ?_
  · exact hloop w₃ (hw₃.trans (hsame hoff))
  · exact hw₃.elim id fun hw₃ => hw₃.trans (hsame hoff)

/-- What a run starts from. -/
def World.begun (w : World α) : World α := { w with calls := [], printed := [] }

/-- One run of the setup: how it ends, and what it leaves. -/
def setUp (env : Env) (plan : Plan α) (token : Option String) (w : World α) :
    Except Fault PUnit × World α :=
  match (configureZone env plan token).run w.begun with
  | .ok a w' => (.ok a, w')
  | .error e w' => (.error e, w')

/-- What a run of the setup comes to, from how the program ends. -/
theorem setUp_cases {token : Option String} {Q E : World α → Prop}
    (h : Ends (configureZone env plan token) w.begun (fun _ => Q) fun _ => E) :
    (setUp env plan token w).1 = .ok ⟨⟩ ∧ Q (setUp env plan token w).2 ∨
      (∃ error, (setUp env plan token w).1 = .error error) ∧ E (setUp env plan token w).2 := by
  unfold Ends at h
  unfold setUp
  cases hrun : (configureZone env plan token).run w.begun with
  | ok a w' =>
    rw [hrun] at h
    exact .inl ⟨rfl, h⟩
  | error e w' =>
    rw [hrun] at h
    exact .inr ⟨⟨e, rfl⟩, h⟩

/-- A run that nothing stands in the way of, and that nothing fails, completes the plan. -/
theorem setUp_completes (hdistinct : (plan.rules.map Entry.phase).Nodup) {token : Option String}
    (htoken : token.getD "" ≠ "") (hclear : ¬ Hindered env plan w.zone) (hup : ¬ env.Fails)
    (hdisk : env.disk = none) :
    (setUp env plan token w).1 = .ok ⟨⟩ ∧ Framed plan w.zone (setUp env plan token w).2.zone ∧
      Completed plan (setUp env plan token w).2.zone := by
  have hends : Ends (configureZone env plan token) w.begun _ _ :=
    ends_configureZone hdistinct rfl
  rcases setUp_cases hends with ⟨hok, -, -, hdone⟩ | ⟨-, h⟩
  · exact ⟨hok, hdone⟩
  · rcases h with ⟨hstopped, -⟩ | ⟨-, -, hfails, -⟩
    · exact absurd hstopped (not_or.mpr ⟨htoken, hclear⟩)
    · exact absurd hfails (not_or.mpr ⟨hup, fun h => h hdisk⟩)

/-- What has been set up in part may be set up again. -/
theorem Kept.not_hindered {env' : Env} (h : Kept plan z z') (hclear : ¬ Hindered env plan z)
    (hup : ¬ env'.Fails) : ¬ Hindered env' plan z' := by
  intro hhindered
  cases hhindered with
  | read i c _ hfails => exact hup ⟨i, c, hfails⟩
  | inactive hstatus => exact hclear (.inactive (h.framed.status ▸ hstatus))
  | notSubdomain hname => exact hclear (.notSubdomain (h.framed.name ▸ hname))
  | duplicate e he hmany => exact Nat.not_lt.mpr (h.single e he) hmany

/-- The setup makes no change when something stands in its way; it leaves all that does not
match in place, however it ends; when it comes to its end the plan is completed, and no other
run changes anything; and when it has requested a change at all, another run, with nothing to
fail it, completes the plan. -/
theorem setUp_spec (env : Env) (plan : Plan α) (hdistinct : (plan.rules.map Entry.phase).Nodup)
    (token : Option String) (w : World α) :
    (Hindered env plan w.zone →
      (∃ error, (setUp env plan token w).1 = .error error) ∧
      (setUp env plan token w).2.zone = w.zone ∧
      ∀ c ∈ (setUp env plan token w).2.calls, c.method = "GET") ∧
    Framed plan w.zone (setUp env plan token w).2.zone ∧
    ((setUp env plan token w).1 = .ok ⟨⟩ →
      Completed plan (setUp env plan token w).2.zone ∧
      ∀ env' token', (setUp env' plan token' (setUp env plan token w).2).2.zone =
        (setUp env plan token w).2.zone) ∧
    ((∃ c ∈ (setUp env plan token w).2.calls, c.method ≠ "GET") →
      ∀ env' : Env, (∀ n c, env'.network.fate n c = .served) → env'.disk = none →
        (setUp env' plan token (setUp env plan token w).2).1 = .ok ⟨⟩ ∧
        Framed plan w.zone (setUp env' plan token (setUp env plan token w).2).2.zone ∧
        Completed plan (setUp env' plan token (setUp env plan token w).2).2.zone) := by
  have hends : Ends (configureZone env plan token) w.begun _ _ :=
    ends_configureZone hdistinct rfl
  have hrerun : ∀ {w' : World α}, token.getD "" ≠ "" → ¬ Hindered env plan w.zone →
      Kept plan w.zone w'.zone → ∀ env' : Env, (∀ n c, env'.network.fate n c = .served) →
        env'.disk = none → (setUp env' plan token w').1 = .ok ⟨⟩ ∧
          Framed plan w.zone (setUp env' plan token w').2.zone ∧
          Completed plan (setUp env' plan token w').2.zone := by
    intro w' htoken hclear hkept env' hserved hdisk
    have hup : ¬ env'.Fails := fun ⟨n, c, hfails⟩ => hfails (hserved n c)
    obtain ⟨hok, hframed, hdone⟩ :=
      setUp_completes hdistinct htoken (hkept.not_hindered hclear hup) hup hdisk
    exact ⟨hok, hkept.framed.trans hframed, hdone⟩
  rcases setUp_cases hends with
    ⟨hok, htoken, hclear, hframed, hdone⟩ | ⟨⟨error, herror⟩, h⟩
  · refine ⟨fun hhindered => absurd hhindered hclear, hframed,
      fun _ => ⟨hdone, fun env' token' => ?_⟩, ?_⟩
    · have hbegun : Completed plan (setUp env plan token w).2.begun.zone := hdone
      have hagain : Ends (configureZone env' plan token') (setUp env plan token w).2.begun _ _ :=
        ends_completed hbegun rfl token'
      rcases setUp_cases hagain with ⟨-, hsame⟩ | ⟨-, hsame⟩
      · exact hsame
      · exact hsame
    · exact fun _ => hrerun htoken hclear ⟨hframed, fun e he => (hdone.settled e he).single⟩
  · rcases h with ⟨hstopped, hreads⟩ | ⟨htoken, hclear, -, hkept⟩
    · have hget := hreads.method rfl
      have hsame : (setUp env plan token w).2.zone = w.zone := hreads.zone
      refine ⟨fun _ => ⟨⟨error, herror⟩, hsame, hget⟩, hsame ▸ .refl _ _, fun hok => ?_, ?_⟩
      · rw [hok] at herror
        cases herror
      · rintro ⟨c, hc, hmethod⟩
        exact absurd (hget c hc) hmethod
    · refine ⟨fun hhindered => absurd hhindered hclear, hkept.framed, fun hok => ?_, fun _ => ?_⟩
      · rw [hok] at herror
        cases herror
      · exact hrerun htoken hclear hkept

/-- A plan with a rule for each of two phases. -/
def samplePlan : Plan Unit where
  zoneId := "zone"
  hostname := "observe.example.com"
  http3 := "on"
  rules := [⟨"http_response_headers_transform",
    ⟨"observer", "iroh H3 observation", "host", "rewrite", ()⟩⟩,
    ⟨"http_request_cache_settings",
      ⟨"observer", "iroh H3 observation cache bypass", "host", "set_cache_settings", ()⟩⟩]

/-- A zone in which one of the phases has another rule and one that was made by hand. -/
def sampleZone : Zone Unit where
  name := "example.com"
  status := "active"
  http3 := "off"
  rulesets p :=
    if p = "http_response_headers_transform" then
      some ⟨"ruleset", some [⟨"other", ⟨"other", none, none, none, ()⟩⟩,
        ⟨"ours", ⟨"dashboard-ref", "iroh H3 observation", "host", "rewrite", ()⟩⟩]⟩
    else none
  issued := ["ruleset", "other", "ours"]
  ruleset_issued p s hs := by
    split_ifs at hs
    cases hs
    decide
  ruleset_inj p q s t hs ht _ := by
    split_ifs at hs ht with hp hq
    exact hp.trans hq.symm
  identified p := by
    split_ifs
    · exact ⟨by decide, by decide⟩
    · exact Identified.nil

/-- Nothing stands in the way of the setup there. -/
theorem sampleZone_clear : ¬ Hindered ⟨.longer, .up, none⟩ samplePlan sampleZone := by
  intro hhindered
  cases hhindered with
  | read i c hread hfails => exact hfails rfl
  | inactive hstatus => exact hstatus rfl
  | notSubdomain hname => exact hname (by decide)
  | duplicate e he hmany =>
    revert e
    decide

/-- The rule that was made by hand is adopted and the missing one created. -/
theorem setUp_spec_sample :
    Completed samplePlan (setUp ⟨.longer, .up, none⟩ samplePlan (some "token")
      ⟨sampleZone, none, [], []⟩).2.zone :=
  have hok : (setUp ⟨.longer, .up, none⟩ samplePlan (some "token") ⟨sampleZone, none, [], []⟩).1 =
      .ok ⟨⟩ :=
    (setUp_completes (by decide) (by decide) sampleZone_clear
      (fun ⟨_, _, hfails⟩ => hfails rfl) rfl).1
  ((setUp_spec ⟨.longer, .up, none⟩ samplePlan (by decide) (some "token")
    ⟨sampleZone, none, [], []⟩).2.2.1 hok).1

end IrohExperiment.Setup
