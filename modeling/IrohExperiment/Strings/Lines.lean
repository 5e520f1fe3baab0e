/-
# Lines

Text whose lines end in LF or in CR LF.  A CR that no LF follows ends no line.
`Lines text lines` says which lines a text has; `splitLines` finds them, and
`joinLines` puts lines together with CR LF.

`lines_iff` says that `splitLines` finds exactly these lines, and `filterLines_idem` that
filtering the lines of a text a second time changes nothing.
-/
import Mathlib.Data.List.Basic
import Mathlib.Tactic

namespace IrohExperiment.Strings

variable {α : Type} {cr lf : α} {text rest line : List α} {lines : List (List α)}

/-! ## The lines of a text -/

/-- The text has these lines. -/
inductive Lines (cr lf : α) : List α → List (List α) → Prop
  /-- The last line. -/
  | last {line : List α} (hline : lf ∉ line) : Lines cr lf line [line]
  /-- A line that ends in LF alone. -/
  | lf {line rest : List α} {lines : List (List α)} (hline : lf ∉ line)
      (hcr : line.getLast? ≠ some cr) (hrest : Lines cr lf rest lines) :
      Lines cr lf (line ++ lf :: rest) (line :: lines)
  /-- A line that ends in CR LF. -/
  | crlf {line rest : List α} {lines : List (List α)} (hline : lf ∉ line)
      (hrest : Lines cr lf rest lines) : Lines cr lf (line ++ cr :: lf :: rest) (line :: lines)

theorem Lines.not_mem (h : Lines cr lf text lines) : ∀ line ∈ lines, lf ∉ line := by
  induction h with
  | last hline => simpa using hline
  | lf hline _ _ ih => exact List.forall_mem_cons.mpr ⟨hline, ih⟩
  | crlf hline _ ih => exact List.forall_mem_cons.mpr ⟨hline, ih⟩

/-! ## Joining -/

/-- Put lines together, with CR LF between them. -/
def joinLines (cr lf : α) : List (List α) → List α
  | [] => []
  | [line] => line
  | line :: next :: lines => line ++ cr :: lf :: joinLines cr lf (next :: lines)

/-- What was put together from lines has these lines. -/
theorem lines_joinLines (hlines : lines ≠ []) (hlf : ∀ line ∈ lines, lf ∉ line) :
    Lines cr lf (joinLines cr lf lines) lines := by
  induction lines with
  | nil => exact absurd rfl hlines
  | cons line lines ih =>
    obtain ⟨hline, hlf⟩ := List.forall_mem_cons.mp hlf
    cases lines with
    | nil => exact .last hline
    | cons next lines => exact .crlf hline (ih (List.cons_ne_nil _ _) hlf)

/-! ## Splitting -/

/-- Add a character to the first line. -/
def extend (c : α) : List (List α) → List (List α)
  | [] => [[c]]
  | line :: lines => (c :: line) :: lines

/-- A character that is no part of a line break extends the first line. -/
theorem Lines.extend {c : α} (h : Lines cr lf rest lines) (hc : c ≠ lf)
    (hcr : c = cr → rest.head? ≠ some lf) : Lines cr lf (c :: rest) (Strings.extend c lines) := by
  have hmem : ∀ {line : List α}, lf ∉ line → lf ∉ c :: line := by
    intro line hline hmem
    rcases List.mem_cons.mp hmem with heq | hmem
    · exact hc heq.symm
    · exact hline hmem
  cases h with
  | last hline => exact .last (hmem hline)
  | @lf line rest lines hline hlast hrest =>
    refine @Lines.lf α cr lf (c :: line) rest lines (hmem hline) ?_ hrest
    cases line with
    | nil =>
      intro heq
      exact hcr (Option.some.inj heq) rfl
    | cons d line => simpa [List.getLast?_cons_cons] using hlast
  | @crlf line rest lines hline hrest =>
    exact @Lines.crlf α cr lf (c :: line) rest lines (hmem hline) hrest

variable [DecidableEq α]

/-- Split a text at every LF, together with a CR right before it. -/
def splitLines (cr lf : α) : List α → List (List α)
  | [] => [[]]
  | [c] => if c = lf then [[], []] else [[c]]
  | c :: d :: rest =>
    if c = lf then [] :: splitLines cr lf (d :: rest)
    else if c = cr ∧ d = lf then [] :: splitLines cr lf rest
    else extend c (splitLines cr lf (d :: rest))

theorem splitLines_lf (rest : List α) :
    splitLines cr lf (lf :: rest) = [] :: splitLines cr lf rest := by
  cases rest <;> simp [splitLines]

theorem splitLines_crlf (hne : cr ≠ lf) (rest : List α) :
    splitLines cr lf (cr :: lf :: rest) = [] :: splitLines cr lf rest := by
  simp [splitLines, hne]

theorem splitLines_cons {c : α} (hc : c ≠ lf) (hcr : c = cr → rest.head? ≠ some lf) :
    splitLines cr lf (c :: rest) = extend c (splitLines cr lf rest) := by
  cases rest with
  | nil => simp [splitLines, hc, extend]
  | cons d rest =>
    have hd : ¬ (c = cr ∧ d = lf) := by
      rintro ⟨rfl, rfl⟩
      exact hcr rfl rfl
    rw [splitLines, if_neg hc, if_neg hd]

theorem splitLines_last (hline : lf ∉ line) : splitLines cr lf line = [line] := by
  induction line with
  | nil => rfl
  | cons c line ih =>
    rw [List.mem_cons, not_or] at hline
    rw [splitLines_cons (Ne.symm hline.1), ih hline.2]
    · rfl
    · intro _ hhead
      exact hline.2 (List.mem_of_mem_head? hhead)

/-- What comes before a line break is the first line. -/
theorem splitLines_append {break_ : List α} (hline : lf ∉ line) (hhead : break_.head? = some cr ∨
      break_.head? = some lf ∧ line.getLast? ≠ some cr) (hne : cr ≠ lf)
    (hbreak : splitLines cr lf break_ = [] :: lines) :
    splitLines cr lf (line ++ break_) = line :: lines := by
  induction line with
  | nil => exact hbreak
  | cons c line ih =>
    rw [List.mem_cons, not_or] at hline
    have hhead' : break_.head? = some cr ∨ break_.head? = some lf ∧ line.getLast? ≠ some cr := by
      refine hhead.imp id (And.imp id fun hlast heq => hlast ?_)
      rw [List.getLast?_cons, heq]
      rfl
    rw [List.cons_append, splitLines_cons (Ne.symm hline.1), ih hline.2 hhead']
    · rfl
    · -- the line goes on, or its break does not begin with an LF
      rintro rfl heq
      cases line with
      | nil =>
        rw [List.nil_append] at heq
        rcases hhead with hcr | ⟨-, hlast⟩
        · exact hne (Option.some.inj (hcr.symm.trans heq))
        · exact hlast rfl
      | cons d line => exact hline.2 (Option.some.inj heq ▸ List.mem_cons_self)

theorem splitLines_of_lines (hne : cr ≠ lf) (h : Lines cr lf text lines) :
    splitLines cr lf text = lines := by
  induction h with
  | last hline => exact splitLines_last hline
  | lf hline hcr _ ih =>
    exact splitLines_append hline (.inr ⟨rfl, hcr⟩) hne (by rw [splitLines_lf, ih])
  | crlf hline _ ih =>
    exact splitLines_append hline (.inl rfl) hne (by rw [splitLines_crlf hne, ih])

theorem lines_splitLines (hne : cr ≠ lf) (text : List α) :
    Lines cr lf text (splitLines cr lf text) := by
  induction hn : text.length using Nat.strong_induction_on generalizing text with
  | h n ih =>
  cases text with
  | nil => exact .last List.not_mem_nil
  | cons c rest =>
    have hrest := ih rest.length (by rw [← hn]; exact Nat.lt_succ_self _) rest rfl
    by_cases hc : c = lf
    · subst hc
      rw [splitLines_lf]
      exact @Lines.lf α cr c [] rest _ List.not_mem_nil nofun hrest
    · by_cases hbreak : c = cr ∧ rest.head? = some lf
      · obtain ⟨rfl, hhead⟩ := hbreak
        obtain ⟨later, rfl⟩ := List.head?_eq_some_iff.mp hhead
        have hlater := ih later.length (by simp [← hn]) later rfl
        rw [splitLines_crlf hne]
        exact @Lines.crlf α c lf [] later _ List.not_mem_nil hlater
      · have hcr : c = cr → rest.head? ≠ some lf := fun heq hhead => hbreak ⟨heq, hhead⟩
        rw [splitLines_cons hc hcr]
        exact hrest.extend hc hcr

/-- The lines of a text are what splitting finds. -/
theorem lines_iff (hne : cr ≠ lf) : Lines cr lf text lines ↔ splitLines cr lf text = lines := by
  constructor
  · exact splitLines_of_lines hne
  · rintro rfl
    exact lines_splitLines hne text

/-! ## Filtering -/

variable {keep : List α → Bool}

/-- The text with only the lines that are kept. -/
def filterLines (cr lf : α) (keep : List α → Bool) (text : List α) : List α :=
  joinLines cr lf ((splitLines cr lf text).filter keep)

/-- Filtering creates, merges and hides no line. -/
theorem splitLines_filterLines (hne : cr ≠ lf) (text : List α) :
    splitLines cr lf (filterLines cr lf keep text) =
      if (splitLines cr lf text).filter keep = [] then [[]]
        else (splitLines cr lf text).filter keep := by
  unfold filterLines
  split_ifs with hnone
  · rw [hnone]
    rfl
  · refine splitLines_of_lines hne (lines_joinLines hnone fun line hline => ?_)
    exact (lines_splitLines hne text).not_mem line (List.mem_of_mem_filter hline)

/-- Filtering twice is filtering once. -/
theorem filterLines_idem (hne : cr ≠ lf) (text : List α) :
    filterLines cr lf keep (filterLines cr lf keep text) = filterLines cr lf keep text := by
  have hsplit : splitLines cr lf (filterLines cr lf keep text) = _ :=
    splitLines_filterLines hne text
  unfold filterLines at hsplit ⊢
  rw [hsplit]
  split_ifs with hnone
  · rw [hnone]
    cases hempty : keep [] <;> simp [hempty, joinLines]
  · rw [List.filter_filter]
    simp only [Bool.and_self]

end IrohExperiment.Strings
