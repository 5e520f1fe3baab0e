/-
# What a run of `alarm` retires (`worker/src/iroh-relay.js`)

`alarm` goes through all sockets with one reading of the clock.  A socket that was
overdue when the alarm went off is still so when its turn comes, unless it was
archived or a pong cleared its deadline in the meantime (`World.Overseen`); so it is
retired.  Nobody else is, apart from sockets whose ping cannot be sent.

`alarm_heeds` is the whole handler, by induction over the sockets (`alarmWalk_heeds`).
-/
import IrohExperiment.Relay.Clearing

namespace IrohExperiment.Relay

open Coop Coroutine

variable {P : Platform} {h : ℕ} {c : Bool} {m : Mode} {w w' s₀ : World} {ws : SocketId}
  {S : SocketId → Prop} {due now first last : ℕ}

/-! ## Which sockets are retired, and why -/

/-- Each of the sockets `S` is archived, or overdue at `due`. -/
def World.Overseen (S : SocketId → Prop) (due : ℕ) (w : World) : Prop :=
  ∀ ws, S ws → Archived w.info ws ∨ w.Late due ws

/-- Where no deadline is set and no alarm touched, what was overdue still is, or is archived. -/
theorem Eases.overseen (he : Eases w w') (hover : w.Overseen S due) : w'.Overseen S due :=
  fun ws hws => (hover ws hws).elim (fun harch => .inl (he.archived harch)) he.late

/-- What was seen when `ws` was retired: it was overdue at `now`, or its ping could
not be sent, since a call of `send` from `first` on and before `last` threw. -/
def Dismissed (P : Platform) (now first last : ℕ) (ws : SocketId) (seen : View) : Prop :=
  ∃ info, seen ws = some info ∧ (info.horizon ≤ now ∨
    info.pendingPing.isSome = true ∧ info.deadline = some (now + 5000) ∧
      ∃ n, first ≤ n ∧ n < last ∧ P.throws n = true)

/-- Reasons for a retirement stay reasons. -/
theorem Retiring.widen {first' last' : ℕ} (hr : Retiring h (Dismissed P now first last) w w')
    (hfirst : first' ≤ first) (hlast : last ≤ last') :
    Retiring h (Dismissed P now first' last') w w' := by
  refine hr.mono fun ws seen ⟨info, hinfo, hwhy⟩ => ⟨info, hinfo, hwhy.imp_right ?_⟩
  rintro ⟨hping, hdeadline, n, hle, hlt, hthrows⟩
  exact ⟨hping, hdeadline, n, hfirst.trans hle, hlt.trans_le hlast, hthrows⟩

/-! ## Pings -/

/-- A ping gives a deadline to a socket that has none. -/
theorem rewrites_arm {info : Attachment} {ping : Text} (hlive : info.archived = false)
    (hdeadline : info.deadline = none) (hpong : ¬ s₀.Ponged ws) :
    Rewrites P s₀ ws info
      { info with pendingPing := some ping, deadline := some (now + 5000) } where
  live := hlive
  late now' _ hle := by
    left
    unfold Attachment.horizon at hle
    rw [hdeadline] at hle
    exact (min_le_right _ _).trans hle
  cleared h := absurd h hpong
  coupled _ := nofun

/-- A ping that is sent has a deadline; one that cannot be sent retires its socket. -/
theorem pingSocket_heeds {pingDue : Bool} {rest : List SocketId} {info : Attachment}
    (hw : Under P h c m s₀ w) (he : w.past.arrivals[h]? = some .alarm)
    (hinfo : w.info ws = some info) (hlive : info.archived = false)
    (hphase : info.phase = .authenticated) (hping : info.pendingPing = none) (hS : ¬ S ws)
    (hover : w.Overseen S due) :
    Heeds P (World.Overseen S due) h (fun _ => false) false
      (fun _ s => Retiring h (Dismissed P now w.calls s.calls) w s ∧ s.Overseen S due)
      (fun _ _ => False) m s₀ (pingSocket P now pingDue rest ws info w) := by
  generalize hinfo' : ({ info with
    pendingPing := some (hex (P.random w.draws 8)), deadline := some (now + 5000) } : Attachment)
    = info'
  have hpong : ¬ s₀.Ponged ws := by
    rintro ⟨_, _, _, hevent, -⟩
    rw [← hw.event, World.event, hw.current, he] at hevent
    cases hevent
  -- the ping is stored
  have hothers : ∀ T, T ≠ ws → (w.draw.setInfo ws info').info T = w.info T := fun T hT => by
    simp [World.info, hT]
  have hself : (w.draw.setInfo ws info').info ws = some info' := by simp [World.info]
  have hw₂ : Under P h false m s₀ (w.draw.setInfo ws info') :=
    (hw.tame (tame_draw h w)).rewrite hinfo hlive (hinfo' ▸ rewrites_arm hlive
      (hw.coupled ws info hinfo hlive hphase hping) hpong) hself hothers rfl le_rfl ⟨rfl, rfl⟩
      fun hpaid => by cases hpaid
  have hover₂ : (w.draw.setInfo ws info').Overseen S due := by
    intro T hT
    have hne : T ≠ ws := fun heq => hS (heq ▸ hT)
    simpa only [Archived, World.Late, hothers T hne] using hover T hT
  have hretains : Retains h w (w.draw.setInfo ws info') := by
    refine ⟨List.prefix_refl _, le_rfl, le_rfl, fun T harch => ?_, fun T ho => .inl ?_⟩
    · have hne : T ≠ ws := by
        rintro rfl
        obtain ⟨i, hi, harch⟩ := harch
        obtain rfl := Option.some.inj (hinfo.symm.trans hi)
        simp [hlive] at harch
      simpa only [Archived, hothers T hne] using harch
    · by_cases hT : T = ws <;> simp_all
  refine .step rfl (.step (a := ()) (u := w.draw.setInfo ws info') (by rw [← hinfo']; rfl) ?_)
  -- and sent
  have hcall := tame_call h (w.draw.setInfo ws info')
  rw [Coroutine.rescue_apply, send_eq hself]
  cases hthrows : P.throws (w.draw.setInfo ws info').calls with
  | false =>
    have hsent : Tame h (w.draw.setInfo ws info') ((w.draw.setInfo ws info').call.sent ws info'
        (9 :: P.random w.draws 8) (some .serverPing) none) :=
      hcall.trans (tame_sent (w := (w.draw.setInfo ws info').call) hself)
    rw [if_neg (by simp)]
    exact .done (hw₂.tame hsent) ⟨.of_retains (hretains.trans hsent.retains),
      hsent.eases.overseen hover₂⟩
  | true =>
    rw [if_pos rfl]
    refine .await ((finish_heeds (hw₂.tame hcall)).mono (fun _ s hs s' hr => ⟨?_, hr.known⟩)
      fun _ _ hE => hE)
    have hdismissed : Retiring h (Dismissed P now w.calls s.calls)
        (w.draw.setInfo ws info').call s := by
      refine hs.1.mono ?_
      rintro T seen ⟨rfl, i, hi, -, hseen⟩
      obtain rfl := Option.some.inj (hself.symm.trans hi)
      refine ⟨_, hseen, .inr ⟨by simp [← hinfo'], by simp [← hinfo'], w.calls, le_rfl, ?_, hthrows⟩⟩
      exact (Nat.lt_succ_self w.calls).trans_le hs.1.calls
    refine (((Retiring.of_retains (hretains.trans hcall.retains)).trans hdismissed).widen le_rfl
      hr.retains.calls).trans (.of_retains hr.retains)

/-! ## The loop -/

/-- The loop retires every socket of `S` that it comes to. -/
theorem alarmWalk_heeds {pingDue : Bool} {peers : List SocketId} (hw : Under P h c m s₀ w)
    (he : w.past.arrivals[h]? = some .alarm) (hover : w.Overseen S due) (hdue : due ≤ now) :
    Heeds P (World.Overseen S due) h (fun _ => false) false
      (fun _ s => Retiring h (Dismissed P now w.calls s.calls) w s ∧
        ∀ ws ∈ peers, S ws → Archived s.info ws) (fun _ _ => False) m s₀
      (alarmWalk P now pingDue peers w) := by
  induction peers generalizing c m s₀ w with
  | nil => exact .done hw.weaken ⟨retiring_refl h _ w, nofun⟩
  | cons ws rest ih =>
    -- the rest follows, once `ws` has been dealt with
    have go : ∀ {c : Bool} {m : Mode} {s₁ s : World}, Under P h c m s₁ s →
        Retiring h (Dismissed P now w.calls s.calls) w s → s.Overseen S due →
        (S ws → Archived s.info ws) →
        Heeds P (World.Overseen S due) h (fun _ => false) false
          (fun _ s' => Retiring h (Dismissed P now w.calls s'.calls) w s' ∧
            ∀ T ∈ ws :: rest, S T → Archived s'.info T) (fun _ _ => False) m s₁
          (alarmWalk P now pingDue rest s) := by
      intro c m s₁ s hs hretiring hover' hfirst
      refine (ih hs (hretiring.event he) hover').mono (fun _ s' hs' => ?_) fun _ _ hE => hE
      refine ⟨(hretiring.widen le_rfl hs'.1.calls).trans (hs'.1.widen hretiring.calls le_rfl),
        fun T hT hST => ?_⟩
      rcases List.mem_cons.mp hT with rfl | hT
      · exact hs'.1.archived T (hfirst hST)
      · exact hs'.2 T hT hST
    refine .step rfl ?_
    cases hinfo : w.info ws with
    | none =>
      simp only [hinfo]
      refine go hw (retiring_refl h _ w) hover fun hS => ?_
      rcases hover ws hS with ⟨i, hi, -⟩ | ⟨i, hi, -⟩ <;> simp [hinfo] at hi
    | some info =>
      simp only [hinfo]
      cases hlive : info.archived with
      | true =>
        rw [if_pos rfl]
        exact go hw (retiring_refl h _ w) hover fun _ => ⟨info, hinfo, hlive⟩
      | false =>
        rw [if_neg (by simp)]
        by_cases hlate : info.expires ≤ now ∨ overdue now info.deadline = true
        · -- the socket has timed out
          rw [if_pos hlate]
          have hhorizon := (horizon_le_iff info now).mpr hlate
          refine .bind (b := fun _ => false) (Q := fun _ s =>
            Retiring h (Dismissed P now w.calls s.calls) w s ∧ s.Overseen S due ∧
              Archived s.info ws) (.await ((finish_heeds hw.weaken).mono (fun _ s hs s' hr => ?_)
                fun _ _ hE => hE)) ?_
          · refine ⟨.trans (hs.1.mono ?_) (.of_retains hr.retains), hr.known,
              hr.retains.archived ws (hs.2 info hinfo)⟩
            rintro T seen ⟨rfl, i, hi, -, hseen⟩
            obtain rfl := Option.some.inj (hinfo.symm.trans hi)
            exact ⟨_, hseen, .inl hhorizon⟩
          · exact fun _ m₁ s₁ s hs hQ => go hs hQ.1 hQ.2.1 fun _ => hQ.2.2
        · -- the socket is none of `S`, and may be pinged
          rw [if_neg hlate]
          have hS : ¬ S ws := by
            intro hS
            rcases hover ws hS with ⟨i, hi, harch⟩ | ⟨i, hi, -, hle⟩
            all_goals obtain rfl := Option.some.inj (hinfo.symm.trans hi)
            · simp [hlive] at harch
            · exact hlate ((horizon_le_iff info now).mp (hle.trans hdue))
          refine .bind (b := fun _ => false) (Q := fun _ s =>
            Retiring h (Dismissed P now w.calls s.calls) w s ∧ s.Overseen S due) ?_ ?_
          · refine .when (fun hping => ?_) fun _ => ⟨hw.weaken, retiring_refl h _ w, hover⟩
            obtain ⟨⟨-, hphase⟩, hnone⟩ : (pingDue = true ∧ info.phase = .authenticated) ∧
                info.pendingPing.isNone = true := by simpa using hping
            exact pingSocket_heeds hw he hinfo hlive hphase
              (Option.isNone_iff_eq_none.mp hnone) hS hover
          · exact fun _ m₁ s₁ s hs hQ => go hs hQ.1 hQ.2 fun h => absurd h hS

/-! ## `alarm` -/

/-- What a run of `alarm` from `w` to `s` has done, if it stored `meta`. -/
def Swept (P : Platform) (h : ℕ) (S : SocketId → Prop) (w s : World) : Prop :=
  h ∈ s.past.metaWriters → ∃ t, w.reads ≤ t ∧ t < s.reads ∧ (∀ ws, S ws → Archived s.info ws) ∧
    Retiring h (Dismissed P (P.clock t) w.calls s.calls) w s

/-- `alarm` retires everything that is overdue, and sets the alarm for everything else. -/
theorem alarm_heeds (hw : Under P h false m w w) (he : w.past.arrivals[h]? = some .alarm)
    (hfresh : h ∉ w.past.metaWriters) (hdue : due ≤ P.clock w.reads) :
    Heeds P (World.Overseen S due) h (fun _ => true) false (fun _ s => Swept P h S w s)
      (fun _ _ => False) m w (alarm P w) := by
  refine .bind (b := fun r => r.isNone) (Q := fun _ s => Retains h w s ∧ Inv P s ∧
    s.Overseen S due ∧ h ∉ s.past.metaWriters) (.awaiting (fun _ => rfl)
      ((follows_bind _ _).mpr ((follows_yield _).mpr ⟨_, hw.turn rfl, fun s hr => ?_⟩))) ?_
  · refine Heeds.done (a := s.storage.roomMeta) (w := s) ?_ fun s' hr' =>
      ⟨hr.retains.trans hr'.retains, hr'.inv, hr'.known,
        fun hmem => hfresh (hr.writer (hr'.writer hmem))⟩
    cases hmeta : s.storage.roomMeta with
    | none => exact (hr.under (c := false)).of_none hmeta _
    | some m' => exact hr.under
  rintro (_ | m') m₁ s₁ s hs ⟨hretains, hI, hover, hwriter⟩
  · exact .done hs fun hmem => absurd hmem hwriter
  have hs' := hs.tame (tame_tick h s)
  refine .step rfl ?_
  by_cases hlong : m'.expires + historyTtl ≤ P.clock s.reads
  · -- the room is over: the storage is deleted
    rw [if_pos hlong]
    refine .request hs' rfl fun s₂ hr => ?_
    have hwipe : Under P h false (.after false) s₂ s₂.wipe :=
      (hr.under (c := false)).owes rfl le_rfl ⟨rfl, rfl⟩ rfl
    exact .done (a := ()) (w := s₂.wipe) (hwipe.of_none rfl true) fun s₃ hr' hmem =>
      absurd (hr.writer (hr'.writer hmem)) hwriter
  · rw [if_neg hlong]
    refine .step rfl (.bind (alarmWalk_heeds hs' (hretains.event he) hover
      (hdue.trans (P.clock_mono hretains.reads))) ?_)
    rintro - m₂ s₂ s₃ hs₃ ⟨hretiring, hall⟩
    refine .bind (putMeta_heeds hs₃) fun _ m₄ s₄ s₅ hs₅ hput => ?_
    refine .await ((schedule_heeds hs₅).mono (fun _ s₆ hsched s₇ hr _ => ?_) fun _ _ hE => hE)
    have hlater := (hput.trans hsched).trans hr.retains
    refine ⟨s.reads, hretains.reads, ?_, fun ws hS => hlater.archived ws ?_, ?_⟩
    · exact (Nat.lt_succ_self s.reads).trans_le (hretiring.reads.trans hlater.reads)
    · rcases hover ws hS with harch | ⟨info, hinfo, hlive, -⟩
      · exact hretiring.archived ws harch
      · exact hall ws (hI.lists ws ⟨info, hinfo, hlive⟩) hS
    · exact ((Retiring.of_retains (hretains.trans (tame_tick h s).retains)).trans
        (hretiring.widen hretains.calls hlater.calls)).trans (.of_retains hlater)

end IrohExperiment.Relay
