/-
# Key files (`tcp-tunnel/src/bin/gateway.rs` and `src/bin/client.rs`)

`load_or_create_key` and `restrict_key_permissions`, of the gateway and of the client alike:
any number of starts on one key file, at the same time or one after the other, some of which
fail or crash between two file operations.  This is the Unix build: without permissions
(`cfg(not(unix))`) a new key is written by one `std::fs::write`, which is left out.

`iroh::SecretKey` is not part of the repository.  It is a parameter, of which the results
assume that a key is thirty-two bytes, any thirty-two, and that `try_from` reads exactly these.

The identity that the file stands for is agreed on and never replaced (`key_file_agreement`),
and a start that has not begun can still get a key exactly if the file is absent, whole, or
being written (`key_file_usable_iff`).
-/
import IrohExperiment.History.Run
import IrohExperiment.Strings.Hex

namespace IrohExperiment.Gateway

open History

/-! ## Keys and files -/

/-- What the code uses of `iroh::SecretKey`: `to_bytes`, and `try_from` on a slice. -/
structure KeyFormat (Key : Type) where
  toBytes : Key → Bytes
  tryFrom : Bytes → Option Key

/-- What `iroh` documents of its keys: they are the thirty-two bytes, and any thirty-two bytes
are one. -/
structure KeyFormat.Lawful {Key : Type} (format : KeyFormat Key) : Prop where
  size : ∀ key, (format.toBytes key).length = 32
  exists_key : ∀ bytes : Bytes, bytes.length = 32 → ∃ key, format.toBytes key = bytes
  tryFrom_iff : ∀ bytes key, format.tryFrom bytes = some key ↔ format.toBytes key = bytes

/-- A file: its contents and its permissions. -/
structure KeyFile where
  contents : Bytes
  mode : ℕ
  deriving DecidableEq, Repr

/-- Nobody but the owner has any permission. -/
def OwnerOnly (mode : ℕ) : Prop := mode &&& 0o077 = 0

instance (mode : ℕ) : Decidable (OwnerOnly mode) := inferInstanceAs (Decidable (_ = _))

/-- Why there is no key. -/
inductive KeyError where
  | read
  | stat
  | restrict
  | parse
  | createParent
  | create
  | write
  deriving DecidableEq, Repr

/-- The context of an error; `who` is `gateway` or `client`. -/
def KeyError.context (who : String) : KeyError → String
  | .read => s!"read {who} key file"
  | .stat => s!"stat {who} key file"
  | .restrict => s!"restrict {who} key file permissions"
  | .parse => s!"parse {who} key file"
  | .createParent => "create key file parent"
  | .create => s!"create {who} key file"
  | .write => s!"write {who} key file"

section Parsing

variable {Key : Type} {format : KeyFormat Key}

/-- `SecretKey::try_from`, with the context of its error -/
def KeyFormat.parseKey (format : KeyFormat Key) (bytes : Bytes) : Except KeyError Key :=
  match format.tryFrom bytes with
  | some key => .ok key
  | none => .error .parse

theorem KeyFormat.Lawful.parseKey_eq_ok (h : format.Lawful) {bytes : Bytes} {key : Key} :
    format.parseKey bytes = .ok key ↔ format.toBytes key = bytes := by
  rw [← h.tryFrom_iff, KeyFormat.parseKey]
  cases format.tryFrom bytes <;> simp

/-- Keys with the same bytes are the same key. -/
theorem KeyFormat.Lawful.injective (h : format.Lawful) : Function.Injective format.toBytes := by
  intro key key' hbytes
  have hkey := (h.tryFrom_iff _ key).mpr rfl
  have hkey' := (h.tryFrom_iff _ key').mpr hbytes.symm
  exact Option.some.inj (hkey.symm.trans hkey')

end Parsing

/-! ## Starts -/

/-- Where a run of `load_or_create_key` stands. -/
inductive KeyStage (Key : Type) where
  | started
  /-- with what has been read, before the permissions are looked at -/
  | checking (bytes : Bytes)
  /-- with what has been read, before the permissions are corrected -/
  | restricting (bytes : Bytes)
  /-- with a fresh key, before the parent directory is there -/
  | generated (key : Key)
  /-- with a fresh key, before the file is created -/
  | creating (key : Key)
  | writing (key : Key) (remaining : Bytes)
  | returned (result : Except KeyError Key)
  | crashed
  deriving DecidableEq

/-- The file, and the runs on it. -/
structure Starts (Key : Type) where
  file : Option KeyFile
  stages : ℕ → KeyStage Key

/-- What can happen. -/
inductive KeyEvent (Key : Type) where
  /-- the file is read; `fresh` is the key that is generated if there is none -/
  | read (i : ℕ) (fresh : Key)
  | stat (i : ℕ)
  | restrict (i : ℕ)
  | mkdir (i : ℕ)
  /-- `create_new` with mode 0600, less what the process masks -/
  | create (i : ℕ) (unmasked : ℕ)
  | write (i : ℕ) (count : ℕ)
  | written (i : ℕ)
  | fails (i : ℕ)
  | crashes (i : ℕ)

variable {Key : Type}

/-- The error of an operation that fails. -/
def KeyStage.error : KeyStage Key → Option KeyError
  | .started => some .read
  | .checking _ => some .stat
  | .restricting _ => some .restrict
  | .generated _ => some .createParent
  | .creating _ => some .create
  | .writing _ _ => some .write
  | .returned _ | .crashed => none

namespace Starts

def put (s : Starts Key) (i : ℕ) (stage : KeyStage Key) : Starts Key :=
  { s with stages := Function.update s.stages i stage }

@[simp] theorem put_stages (s : Starts Key) (i j : ℕ) (stage : KeyStage Key) :
    (s.put i stage).stages j = if j = i then stage else s.stages j :=
  Function.update_apply ..

@[simp] theorem put_file (s : Starts Key) (i : ℕ) (stage : KeyStage Key) :
    (s.put i stage).file = s.file := rfl

/-- No run has begun on a file. -/
def start (file : Option KeyFile) : Starts Key := ⟨file, fun _ => .started⟩

/-- One step; `none` where the event cannot happen. -/
def step (format : KeyFormat Key) (event : KeyEvent Key) (s : Starts Key) :
    Option (Starts Key) :=
  match event with
  | .read i fresh =>
    match s.stages i, s.file with
    | .started, some file => some (s.put i (.checking file.contents))
    | .started, none => some (s.put i (.generated fresh))
    | _, _ => none
  | .stat i =>
    match s.stages i, s.file with
    | .checking bytes, some file =>
      if OwnerOnly file.mode then some (s.put i (.returned (format.parseKey bytes)))
      else some (s.put i (.restricting bytes))
    | _, _ => none
  | .restrict i =>
    match s.stages i, s.file with
    | .restricting bytes, some file =>
      some { s.put i (.returned (format.parseKey bytes)) with file := some ⟨file.contents, 0o600⟩ }
    | _, _ => none
  | .mkdir i =>
    match s.stages i with
    | .generated key => some (s.put i (.creating key))
    | _ => none
  | .create i unmasked =>
    match s.stages i, s.file with
    | .creating key, none =>
      some { s.put i (.writing key (format.toBytes key)) with
        file := some ⟨[], 0o600 &&& unmasked⟩ }
    | .creating _, some _ => some (s.put i (.returned (.error .create)))
    | _, _ => none
  | .write i count =>
    match s.stages i, s.file with
    | .writing key remaining, some file =>
      if 0 < count ∧ count ≤ remaining.length then
        some { s.put i (.writing key (remaining.drop count)) with
          file := some ⟨file.contents ++ remaining.take count, file.mode⟩ }
      else none
    | _, _ => none
  | .written i =>
    match s.stages i with
    | .writing key [] => some (s.put i (.returned (.ok key)))
    | _ => none
  | .fails i =>
    match (s.stages i).error with
    | some error => some (s.put i (.returned (.error error)))
    | none => none
  | .crashes i => some (s.put i .crashed)

end Starts

/-! ## What holds in every run -/

/-- The stages that say nothing about the file. -/
def KeyStage.Idle : KeyStage Key → Prop
  | .started | .generated _ | .creating _ | .returned (.error _) | .crashed => True
  | _ => False

/-- A file that has held the bytes holds the contents: only a key that was not whole grows. -/
def Grown (bytes contents : Bytes) : Prop :=
  bytes <+: contents ∧ (contents = bytes ∨ contents.length ≤ 32)

/-- A file that was there is never rewritten, one that was not is written by one run alone, and a
key that has been returned is what the file holds, for its owner only. -/
structure Guarded (format : KeyFormat Key) (file : Option KeyFile) (s : Starts Key) : Prop where
  kept : ∀ f, file = some f →
    (∃ mode, s.file = some ⟨f.contents, mode⟩ ∧ (OwnerOnly f.mode → OwnerOnly mode)) ∧
      ∀ i key remaining, s.stages i = .writing key remaining → remaining = []
  writing : ∀ i key remaining, s.stages i = .writing key remaining → ∃ contents mode,
    s.file = some ⟨contents, mode⟩ ∧ contents ++ remaining = format.toBytes key ∧ OwnerOnly mode
  single : ∀ i j key remaining key' remaining', s.stages i = .writing key remaining →
    s.stages j = .writing key' remaining' → i = j
  seen : ∀ i bytes, s.stages i = .checking bytes ∨ s.stages i = .restricting bytes →
    ∃ contents mode, s.file = some ⟨contents, mode⟩ ∧ Grown bytes contents
  returned : ∀ i key, s.stages i = .returned (.ok key) → ∃ mode,
    s.file = some ⟨format.toBytes key, mode⟩ ∧ OwnerOnly mode

variable {format : KeyFormat Key} {file : Option KeyFile} {s s' : Starts Key}

theorem guarded_start (format : KeyFormat Key) (file : Option KeyFile) :
    Guarded format file (.start file) where
  kept f hf := ⟨⟨f.mode, hf, id⟩, fun _ _ _ h => by cases h⟩
  writing _ _ _ h := by cases h
  single _ _ _ _ _ _ h := by cases h
  seen _ _ h := by rcases h with h | h <;> cases h
  returned _ _ h := by cases h

/-- A run that does not write and leaves the file alone. -/
theorem Guarded.put (h : Guarded format file s) (i : ℕ) {stage : KeyStage Key}
    (hwriting : ∀ key remaining, stage ≠ .writing key remaining)
    (hseen : ∀ bytes, stage = .checking bytes ∨ stage = .restricting bytes →
      ∃ contents mode, s.file = some ⟨contents, mode⟩ ∧ Grown bytes contents)
    (hreturned : ∀ key, stage = .returned (.ok key) → ∃ mode,
      s.file = some ⟨format.toBytes key, mode⟩ ∧ OwnerOnly mode) :
    Guarded format file (s.put i stage) := by
  have hold : ∀ j key remaining, (s.put i stage).stages j = .writing key remaining →
      s.stages j = .writing key remaining := by
    intro j key remaining hj
    rw [Starts.put_stages] at hj
    split_ifs at hj with hij
    · exact absurd hj (hwriting key remaining)
    · exact hj
  refine ⟨fun f hf => ?_, fun j key remaining hj => h.writing j key remaining (hold j _ _ hj),
    fun j k key remaining key' remaining' hj hk =>
      h.single j k _ _ _ _ (hold j _ _ hj) (hold k _ _ hk),
    fun j bytes hj => ?_, fun j key hj => ?_⟩
  · obtain ⟨hfile, hdone⟩ := h.kept f hf
    exact ⟨hfile, fun j key remaining hj => hdone j key remaining (hold j _ _ hj)⟩
  · rw [Starts.put_stages] at hj
    split_ifs at hj with hij
    · exact hseen bytes hj
    · exact h.seen j bytes hj
  · rw [Starts.put_stages] at hj
    split_ifs at hj with hij
    · exact hreturned key hj
    · exact h.returned j key hj

/-- A run that comes to a stage that says nothing about the file. -/
theorem Guarded.put_idle (h : Guarded format file s) (i : ℕ) {stage : KeyStage Key}
    (hidle : stage.Idle) :
    Guarded format file (s.put i stage) := by
  refine h.put i ?_ ?_ ?_
  · rintro key remaining rfl
    exact hidle
  · rintro bytes (rfl | rfl) <;> exact hidle.elim
  · rintro key rfl
    exact hidle.elim

/-- What has been read is a key only if it is all that the file will ever hold. -/
theorem contents_of_parseKey (hformat : format.Lawful) {bytes contents : Bytes} {key : Key}
    (hparse : format.parseKey bytes = .ok key) (hgrown : Grown bytes contents) :
    contents = format.toBytes key := by
  obtain rfl := hformat.parseKey_eq_ok.mp hparse
  have hlen := hformat.size key
  rcases hgrown.2 with heq | hle
  · exact heq
  · exact (hgrown.1.eq_of_length (by have := hgrown.1.length_le; omega)).symm

/-- A file that is created for its owner is nobody else's, whatever the process masks. -/
theorem ownerOnly_masked (unmasked : ℕ) : OwnerOnly (0o600 &&& unmasked) := by
  unfold OwnerOnly
  rw [Nat.and_assoc, Nat.and_comm unmasked, ← Nat.and_assoc]
  show 0 &&& unmasked = 0
  exact Nat.zero_and unmasked

/-- The permissions are corrected. -/
theorem Guarded.restrict (h : Guarded format file s) {f : KeyFile} (hfile : s.file = some f) :
    Guarded format file { s with file := some ⟨f.contents, 0o600⟩ } := by
  refine ⟨fun g hg => ?_, fun i key remaining hi => ?_, h.single, fun i bytes hi => ?_,
    fun i key hi => ?_⟩
  · obtain ⟨⟨mode, hkept, -⟩, hdone⟩ := h.kept g hg
    obtain rfl := Option.some.inj (hfile.symm.trans hkept)
    exact ⟨⟨_, rfl, fun _ => rfl⟩, hdone⟩
  · obtain ⟨contents, mode, hwriting, hkey, -⟩ := h.writing i key remaining hi
    obtain rfl := Option.some.inj (hfile.symm.trans hwriting)
    exact ⟨_, _, rfl, hkey, rfl⟩
  · obtain ⟨contents, mode, hseen, hbytes⟩ := h.seen i bytes hi
    obtain rfl := Option.some.inj (hfile.symm.trans hseen)
    exact ⟨_, _, rfl, hbytes⟩
  · obtain ⟨mode, hreturned, -⟩ := h.returned i key hi
    obtain rfl := Option.some.inj (hfile.symm.trans hreturned)
    exact ⟨_, rfl, rfl⟩

/-- The file is created: nobody has seen it before. -/
theorem Guarded.create (h : Guarded format file s) {i : ℕ} {key : Key} (hfile : s.file = none)
    (unmasked : ℕ) :
    Guarded format file
      { s.put i (.writing key (format.toBytes key)) with
        file := some ⟨[], 0o600 &&& unmasked⟩ } := by
  have hnobody : ∀ j key remaining, s.stages j ≠ .writing key remaining := by
    intro j key remaining hj
    obtain ⟨contents, mode, hsome, -⟩ := h.writing j key remaining hj
    cases hfile.symm.trans hsome
  have hwriter : ∀ j key' remaining,
      (s.put i (.writing key (format.toBytes key))).stages j = .writing key' remaining →
        j = i ∧ key' = key ∧ remaining = format.toBytes key := by
    intro j key' remaining hj
    rw [Starts.put_stages] at hj
    split_ifs at hj with hij
    · obtain ⟨rfl, rfl⟩ := KeyStage.writing.inj hj
      exact ⟨hij, rfl, rfl⟩
    · exact absurd hj (hnobody j key' remaining)
  refine ⟨fun g hg => ?_, fun j key' remaining hj => ?_,
    fun j k _ _ _ _ hj hk => ((hwriter j _ _ hj).1).trans (hwriter k _ _ hk).1.symm,
    fun j bytes hj => ?_, fun j key' hj => ?_⟩
  · obtain ⟨⟨mode, hkept, -⟩, -⟩ := h.kept g hg
    cases hfile.symm.trans hkept
  · obtain ⟨-, rfl, rfl⟩ := hwriter j key' remaining hj
    exact ⟨[], _, rfl, rfl, ownerOnly_masked unmasked⟩
  · simp only [Starts.put_stages] at hj
    split_ifs at hj with hij
    · rcases hj with hj | hj <;> cases hj
    · obtain ⟨contents, mode, hsome, -⟩ := h.seen j bytes hj
      cases hfile.symm.trans hsome
  · simp only [Starts.put_stages] at hj
    split_ifs at hj
    obtain ⟨mode, hsome, -⟩ := h.returned j key' hj
    cases hfile.symm.trans hsome

/-- Some of the key is written: the file has not been whole before. -/
theorem Guarded.write (hformat : format.Lawful) (h : Guarded format file s) {i : ℕ} {key : Key}
    {remaining : Bytes} {f : KeyFile} (hstage : s.stages i = .writing key remaining)
    (hfile : s.file = some f) {count : ℕ}
    (hcount : 0 < count ∧ count ≤ remaining.length) :
    Guarded format file { s.put i (.writing key (remaining.drop count)) with
      file := some ⟨f.contents ++ remaining.take count, f.mode⟩ } := by
  obtain ⟨contents, mode, hwriting, hkey, hmode⟩ := h.writing i key remaining hstage
  obtain rfl := Option.some.inj (hfile.symm.trans hwriting)
  have hsize := congrArg List.length hkey
  rw [List.length_append, hformat.size] at hsize
  have hgrown : (contents ++ remaining.take count).length ≤ 32 := by
    rw [List.length_append, List.length_take]
    omega
  have hwriter : ∀ j key' remaining',
      (s.put i (.writing key (remaining.drop count))).stages j = .writing key' remaining' →
        j = i ∧ key' = key ∧ remaining' = remaining.drop count := by
    intro j key' remaining' hj
    rw [Starts.put_stages] at hj
    split_ifs at hj with hij
    · obtain ⟨rfl, rfl⟩ := KeyStage.writing.inj hj
      exact ⟨hij, rfl, rfl⟩
    · exact absurd (h.single j i _ _ _ _ hj hstage) hij
  refine ⟨fun g hg => ?_, fun j key' remaining' hj => ?_,
    fun j k _ _ _ _ hj hk => ((hwriter j _ _ hj).1).trans (hwriter k _ _ hk).1.symm,
    fun j bytes hj => ?_, fun j key' hj => ?_⟩
  · obtain rfl := (h.kept g hg).2 i key remaining hstage
    cases hcount.1.trans_le hcount.2
  · obtain ⟨-, rfl, rfl⟩ := hwriter j key' remaining' hj
    refine ⟨_, _, rfl, ?_, hmode⟩
    rw [List.append_assoc, List.take_append_drop, hkey]
  · simp only [Starts.put_stages] at hj
    split_ifs at hj with hij
    · rcases hj with hj | hj <;> cases hj
    · obtain ⟨contents', mode', hsome, hseen⟩ := h.seen j bytes hj
      obtain ⟨rfl, rfl⟩ := KeyFile.mk.inj (Option.some.inj (hfile.symm.trans hsome))
      exact ⟨_, _, rfl, hseen.1.trans (List.prefix_append _ _), .inr hgrown⟩
  · simp only [Starts.put_stages] at hj
    split_ifs at hj
    obtain ⟨mode', hsome, -⟩ := h.returned j key' hj
    obtain ⟨rfl, rfl⟩ := KeyFile.mk.inj (Option.some.inj (hfile.symm.trans hsome))
    -- what has been returned is whole
    have := hformat.size key'
    omega

theorem Guarded.step (hformat : format.Lawful) (h : Guarded format file s) {event : KeyEvent Key}
    (hstep : Starts.step format event s = some s') : Guarded format file s' := by
  unfold Starts.step at hstep
  cases event with
  | read i fresh =>
    simp only at hstep
    split at hstep
    · next f hstarted hfile =>
      obtain rfl := Option.some.inj hstep
      refine h.put i (fun _ _ hs => by cases hs) (fun bytes hs => ?_) (fun _ hs => by cases hs)
      rcases hs with hs | hs
      · obtain rfl := KeyStage.checking.inj hs
        exact ⟨_, _, hfile, List.prefix_rfl, .inl rfl⟩
      · cases hs
    · obtain rfl := Option.some.inj hstep
      exact h.put_idle i trivial
    · cases hstep
  | stat i =>
    simp only at hstep
    split at hstep
    · next bytes f hstage hfile =>
      obtain ⟨contents, mode, hsome, hbytes⟩ := h.seen i bytes (.inl hstage)
      obtain rfl := Option.some.inj (hfile.symm.trans hsome)
      -- the key is taken from what was read, once the mode is right
      split_ifs at hstep with hmode <;> obtain rfl := Option.some.inj hstep
      · refine h.put i (fun _ _ hs => by cases hs)
          (fun _ hs => by rcases hs with hs | hs <;> cases hs) (fun key hs => ?_)
        rw [← contents_of_parseKey hformat (KeyStage.returned.inj hs) hbytes]
        exact ⟨mode, hfile, hmode⟩
      · refine h.put i (fun _ _ hs => by cases hs) (fun bytes' hs => ?_) (fun _ hs => by cases hs)
        rcases hs with hs | hs
        · cases hs
        · obtain rfl := KeyStage.restricting.inj hs
          exact ⟨contents, mode, hfile, hbytes⟩
    · cases hstep
  | restrict i =>
    simp only at hstep
    split at hstep
    · next bytes f hstage hfile =>
      obtain ⟨contents, mode, hsome, hbytes⟩ := h.seen i bytes (.inr hstage)
      obtain rfl := Option.some.inj (hfile.symm.trans hsome)
      obtain rfl := Option.some.inj hstep
      refine (h.restrict hfile).put i (fun _ _ hs => by cases hs)
        (fun _ hs => by rcases hs with hs | hs <;> cases hs) (fun key hs => ?_)
      rw [← contents_of_parseKey hformat (KeyStage.returned.inj hs) hbytes]
      exact ⟨_, rfl, rfl⟩
    · cases hstep
  | mkdir i =>
    simp only at hstep
    split at hstep
    · obtain rfl := Option.some.inj hstep
      exact h.put_idle i trivial
    · cases hstep
  | create i unmasked =>
    simp only at hstep
    split at hstep
    · next key hstage hfile =>
      obtain rfl := Option.some.inj hstep
      -- the file is new, so what is in it is this start's own
      exact h.create hfile unmasked
    · obtain rfl := Option.some.inj hstep
      exact h.put_idle i trivial
    · cases hstep
  | write i count =>
    simp only at hstep
    split at hstep
    · next key remaining f hstage hfile =>
      obtain ⟨hcount, rfl⟩ := of_guarded hstep
      exact h.write hformat hstage hfile hcount
    · cases hstep
  | written i =>
    simp only at hstep
    split at hstep
    · next key hstage =>
      -- with nothing left to write the whole key is in the file
      obtain ⟨contents, mode, hfile, hkey, hmode⟩ := h.writing i key [] hstage
      rw [List.append_nil] at hkey
      obtain rfl := Option.some.inj hstep
      refine h.put i (fun _ _ hs => by cases hs)
        (fun _ hs => by rcases hs with hs | hs <;> cases hs) (fun key' hs => ?_)
      obtain rfl := Except.ok.inj (KeyStage.returned.inj hs)
      rw [← hkey]
      exact ⟨mode, hfile, hmode⟩
    · cases hstep
  | fails i =>
    simp only at hstep
    split at hstep
    · obtain rfl := Option.some.inj hstep
      exact h.put_idle i trivial
    · cases hstep
  -- a start that is gone leaves the file as it stands
  | crashes i =>
    obtain rfl := Option.some.inj hstep
    exact h.put_idle i trivial

theorem Guarded.run (hformat : format.Lawful) (h : Guarded format file s)
    {events : List (KeyEvent Key)} (hrun : run (Starts.step format) s events = some s') :
    Guarded format file s' :=
  run_induct (P := fun _ s => Guarded format file s) h
    (fun _ _ _ _ _ h hstep => h.step hformat hstep) hrun

/-- A file to which nothing more is written is from here on as if it had been there. -/
theorem Guarded.rebase (h : Guarded format file s) {f : KeyFile} (hfile : s.file = some f)
    (hdone : ∀ i key remaining, s.stages i = .writing key remaining → remaining = []) :
    Guarded format (some f) s := by
  refine ⟨fun g hg => ?_, h.writing, h.single, h.seen, h.returned⟩
  obtain rfl := Option.some.inj hg
  exact ⟨⟨f.mode, hfile, id⟩, hdone⟩

/-- Any number of starts on one key file, at the same time or later, crashes included: once a key
has been returned it is what the file held if there was one, it is what the file holds for its
owner alone, and no other key is ever returned. -/
theorem key_file_agreement (hformat : format.Lawful) {events more : List (KeyEvent Key)}
    {t : Starts Key} (hrun : run (Starts.step format) (.start file) events = some s)
    (hmore : run (Starts.step format) s more = some t) {i : ℕ} {key : Key}
    (hkey : s.stages i = .returned (.ok key)) :
    (∀ f, file = some f → f.contents = format.toBytes key) ∧
    (∃ mode, t.file = some ⟨format.toBytes key, mode⟩ ∧ OwnerOnly mode) ∧
    ∀ j key', t.stages j = .returned (.ok key') → key' = key := by
  have hs := (guarded_start format file).run hformat hrun
  obtain ⟨mode, hfile, hmode⟩ := hs.returned i key hkey
  have hdone : ∀ j key' remaining, s.stages j = .writing key' remaining → remaining = [] := by
    intro j key' remaining hj
    obtain ⟨contents, mode', hwriting, hbytes, -⟩ := hs.writing j key' remaining hj
    obtain ⟨rfl, rfl⟩ := KeyFile.mk.inj (Option.some.inj (hfile.symm.trans hwriting))
    have hsize := congrArg List.length hbytes
    rw [List.length_append, hformat.size, hformat.size] at hsize
    exact List.length_eq_zero_iff.mp (by omega)
  have ht := (hs.rebase hfile hdone).run hformat hmore
  obtain ⟨⟨mode', hkept, howner⟩, -⟩ := ht.kept _ rfl
  refine ⟨fun f hf => ?_, ⟨mode', hkept, howner hmode⟩, fun j key' hj => ?_⟩
  · obtain ⟨⟨_, hheld, -⟩, -⟩ := hs.kept f hf
    exact (congrArg KeyFile.contents (Option.some.inj (hfile.symm.trans hheld))).symm
  · obtain ⟨mode'', hreturned, -⟩ := ht.returned j key' hj
    exact hformat.injective
      (congrArg KeyFile.contents (Option.some.inj (hreturned.symm.trans hkept)))

/-- Keys that are their bytes. -/
def rawKeys : KeyFormat { bytes : Bytes // bytes.length = 32 } where
  toBytes := Subtype.val
  tryFrom bytes := if h : bytes.length = 32 then some ⟨bytes, h⟩ else none

theorem rawKeys_lawful : rawKeys.Lawful where
  size key := key.property
  exists_key bytes h := ⟨⟨bytes, h⟩, rfl⟩
  tryFrom_iff bytes key := by
    constructor
    · intro h
      unfold rawKeys at h
      simp only [Option.dite_none_right_eq_some] at h
      obtain ⟨hsize, hkey⟩ := h
      exact congrArg Subtype.val (Option.some.inj hkey).symm
    · rintro rfl
      exact dif_pos key.property

/-- A key that is all zeros. -/
def zeroKey : { bytes : Bytes // bytes.length = 32 } :=
  ⟨List.replicate 32 0, List.length_replicate ..⟩

/-- Two starts find no file, the second one too late to create it. -/
def twoStarts : List (KeyEvent { bytes : Bytes // bytes.length = 32 }) :=
  [.read 0 zeroKey, .read 1 zeroKey, .mkdir 0, .create 0 0o755, .write 0 20, .mkdir 1,
    .create 1 0o777, .write 0 12, .written 0]

theorem key_file_agreement_twoStarts : ∃ s t : Starts { bytes : Bytes // bytes.length = 32 },
    s.stages 1 = .returned (.error .create) ∧ t.stages 2 = .returned (.ok zeroKey) ∧
      ∃ mode, t.file = some ⟨zeroKey.val, mode⟩ ∧ OwnerOnly mode := by
  have hstages : (run (Starts.step rawKeys) (.start none) twoStarts).map
      (fun s => (s.stages 0, s.stages 1)) =
        some (.returned (.ok zeroKey), .returned (.error .create)) := by
    decide +kernel
  have hlater : ((run (Starts.step rawKeys) (.start none) twoStarts).bind fun s =>
      run (Starts.step rawKeys) s [.read 2 zeroKey, .stat 2]).map (fun t => t.stages 2) =
        some (.returned (.ok zeroKey)) := by
    decide +kernel
  obtain ⟨s, hrun, hs⟩ := Option.map_eq_some_iff.mp hstages
  obtain ⟨hkey, herror⟩ := Prod.mk.inj hs
  rw [hrun] at hlater
  obtain ⟨t, hmore, ht⟩ := Option.map_eq_some_iff.mp hlater
  exact ⟨s, t, herror, ht, (key_file_agreement rawKeys_lawful hrun hmore hkey).2.1⟩

/-! ## Crashes -/

/-- A start on a whole key. -/
theorem exists_reads (hformat : format.Lawful) {j : ℕ} (hstarted : s.stages j = .started)
    {f : KeyFile} (hfile : s.file = some f) (hsize : f.contents.length = 32) :
    ∃ more t key, run (Starts.step format) s more = some t ∧
      t.stages j = .returned (.ok key) := by
  obtain ⟨key, hkey⟩ := hformat.exists_key f.contents hsize
  have hparse : format.parseKey f.contents = .ok key := hformat.parseKey_eq_ok.mpr hkey
  have hread : Starts.step format (.read j key) s = some (s.put j (.checking f.contents)) := by
    simp [Starts.step, hstarted, hfile]
  by_cases hmode : OwnerOnly f.mode
  · have hstat : Starts.step format (.stat j) (s.put j (.checking f.contents)) =
        some ((s.put j (.checking f.contents)).put j (.returned (.ok key))) := by
      simp [Starts.step, hfile, hmode, hparse]
    refine ⟨_, _, key, run_cons.mpr ⟨_, hread, run_cons.mpr ⟨_, hstat, run_nil⟩⟩, ?_⟩
    rw [Starts.put_stages, if_pos rfl]
  · have hstat : Starts.step format (.stat j) (s.put j (.checking f.contents)) =
        some ((s.put j (.checking f.contents)).put j (.restricting f.contents)) := by
      simp [Starts.step, hfile, hmode]
    have hrestrict : Starts.step format (.restrict j)
        ((s.put j (.checking f.contents)).put j (.restricting f.contents)) =
          some { ((s.put j (.checking f.contents)).put j (.restricting f.contents)).put j
            (.returned (.ok key)) with file := some ⟨f.contents, 0o600⟩ } := by
      simp [Starts.step, hfile, hparse]
    refine ⟨_, _, key, run_cons.mpr ⟨_, hread, run_cons.mpr ⟨_, hstat,
      run_cons.mpr ⟨_, hrestrict, run_nil⟩⟩⟩, ?_⟩
    show (Starts.put _ j _).stages j = _
    rw [Starts.put_stages, if_pos rfl]

/-- A run that writes can write all of its key. -/
theorem exists_writes (format : KeyFormat Key) {i : ℕ} {key : Key} {remaining contents : Bytes}
    {mode : ℕ} (hstage : s.stages i = .writing key remaining)
    (hfile : s.file = some ⟨contents, mode⟩) :
    ∃ more t, run (Starts.step format) s more = some t ∧ t.stages i = .writing key [] ∧
      t.file = some ⟨contents ++ remaining, mode⟩ ∧ ∀ j, j ≠ i → t.stages j = s.stages j := by
  cases hremaining : remaining with
  | nil =>
    rw [hremaining] at hstage
    rw [List.append_nil]
    exact ⟨[], s, run_nil, hstage, hfile, fun _ _ => rfl⟩
  | cons byte bytes =>
    have hwrite : Starts.step format (.write i remaining.length) s =
        some { s.put i (.writing key []) with file := some ⟨contents ++ remaining, mode⟩ } := by
      simp [Starts.step, hstage, hfile, hremaining]
    rw [← hremaining]
    refine ⟨_, _, run_cons.mpr ⟨_, hwrite, run_nil⟩, ?_, rfl, fun j hj => ?_⟩
    · show (Starts.put _ i _).stages i = _
      rw [Starts.put_stages, if_pos rfl]
    · show (Starts.put _ i _).stages j = _
      rw [Starts.put_stages, if_neg hj]

/-- A start where there is no file. -/
theorem exists_creates (format : KeyFormat Key) (key : Key) {j : ℕ}
    (hstarted : s.stages j = .started) (hfile : s.file = none) :
    ∃ more t key, run (Starts.step format) s more = some t ∧
      t.stages j = .returned (.ok key) := by
  have hread : Starts.step format (.read j key) s = some (s.put j (.generated key)) := by
    simp [Starts.step, hstarted, hfile]
  have hmkdir : Starts.step format (.mkdir j) (s.put j (.generated key)) =
      some ((s.put j (.generated key)).put j (.creating key)) := by
    simp [Starts.step]
  have hcreate : Starts.step format (.create j 0o777)
      ((s.put j (.generated key)).put j (.creating key)) =
        some { ((s.put j (.generated key)).put j (.creating key)).put j
          (.writing key (format.toBytes key)) with file := some ⟨[], 0o600 &&& 0o777⟩ } := by
    simp [Starts.step, hfile]
  obtain ⟨more, t, hwrites, hstage, hcontents, -⟩ :=
    exists_writes format (s := { ((s.put j (.generated key)).put j
      (.creating key)).put j (.writing key (format.toBytes key)) with
        file := some ⟨[], 0o600 &&& 0o777⟩ }) (i := j)
      (by show (Starts.put _ j _).stages j = _; rw [Starts.put_stages, if_pos rfl]) rfl
  have hwritten : Starts.step format (.written j) t = some (t.put j (.returned (.ok key))) := by
    simp [Starts.step, hstage]
  refine ⟨_, _, key, run_cons.mpr ⟨_, hread, run_cons.mpr ⟨_, hmkdir, run_cons.mpr ⟨_, hcreate,
    run_append_eq_some.mpr ⟨_, hwrites, run_cons.mpr ⟨_, hwritten, run_nil⟩⟩⟩⟩⟩, ?_⟩
  rw [Starts.put_stages, if_pos rfl]

/-- A start that has not begun can still get a key if and only if there is no file, the file holds
a whole key, or somebody is writing one.  So a start that crashes while it writes leaves a file on
which every later start fails, whatever happens. -/
theorem key_file_usable_iff (hformat : format.Lawful) {events : List (KeyEvent Key)}
    (hrun : run (Starts.step format) (.start file) events = some s) {j : ℕ}
    (hstarted : s.stages j = .started) :
    (∃ more t key, run (Starts.step format) s more = some t ∧
        t.stages j = .returned (.ok key)) ↔
      s.file = none ∨ (∃ f, s.file = some f ∧ f.contents.length = 32) ∨
        ∃ i key remaining, s.stages i = .writing key remaining := by
  have hs := (guarded_start format file).run hformat hrun
  constructor
  · rintro ⟨more, t, key, hmore, hkey⟩
    by_contra hnot
    rw [not_or, not_or] at hnot
    obtain ⟨hfile, hsize, hnobody⟩ := hnot
    obtain ⟨f, hfile⟩ := Option.ne_none_iff_exists'.mp hfile
    have ht := (hs.rebase hfile fun i key' remaining hi =>
      absurd ⟨i, key', remaining, hi⟩ hnobody).run hformat hmore
    obtain ⟨mode, hreturned, -⟩ := ht.returned j key hkey
    obtain ⟨⟨mode', hkept, -⟩, -⟩ := ht.kept f rfl
    have hbytes := congrArg KeyFile.contents (Option.some.inj (hreturned.symm.trans hkept))
    refine hsize ⟨f, hfile, ?_⟩
    rw [← hbytes]
    exact hformat.size key
  · rintro (hnone | ⟨f, hfile, hsize⟩ | ⟨i, key, remaining, hi⟩)
    · obtain ⟨key, -⟩ := hformat.exists_key (List.replicate 32 0) (List.length_replicate ..)
      exact exists_creates format key hstarted hnone
    · exact exists_reads hformat hstarted hfile hsize
    · obtain ⟨contents, mode, hfile, hkey, -⟩ := hs.writing i key remaining hi
      obtain ⟨more, t, hwrites, -, hcontents, hothers⟩ := exists_writes format hi hfile
      have hj : j ≠ i := by
        rintro rfl
        cases hstarted.symm.trans hi
      obtain ⟨more', t', key', hreads, hreturned⟩ :=
        exists_reads hformat ((hothers j hj).trans hstarted) hcontents
          (by rw [hkey]; exact hformat.size key)
      exact ⟨_, t', key', run_append_eq_some.mpr ⟨t, hwrites, hreads⟩, hreturned⟩

/-- A start crashes with twenty bytes of its key written. -/
def crashing : List (KeyEvent { bytes : Bytes // bytes.length = 32 }) :=
  [.read 0 zeroKey, .mkdir 0, .create 0 0o777, .write 0 20, .crashes 0]

theorem key_file_usable_iff_crashing :
    ∃ s, run (Starts.step rawKeys) (.start none) crashing = some s ∧
      ¬ ∃ more t key, run (Starts.step rawKeys) s more = some t ∧
        t.stages 1 = .returned (.ok key) := by
  have hrun : run (Starts.step rawKeys) (.start none) crashing = some _ := rfl
  refine ⟨_, hrun, fun husable => ?_⟩
  rcases (key_file_usable_iff rawKeys_lawful hrun rfl).mp husable with
    hnone | ⟨f, hfile, hsize⟩ | ⟨i, key, remaining, hi⟩
  · cases hnone
  · obtain rfl := Option.some.inj hfile
    cases hsize
  · simp only [Starts.put_stages] at hi
    split_ifs at hi
    cases hi

end IrohExperiment.Gateway
