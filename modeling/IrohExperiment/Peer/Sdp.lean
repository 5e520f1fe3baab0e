/-
# Session descriptions (`worker/public/peer-proof.js`)

The session descriptions that the two browsers exchange carry no candidates: those go
in messages of their own, after they were checked.  A JavaScript string is a list of
UTF-16 code units here, any list at all.

`signalingSdp` splits a description at LF and CR LF, leaves out the candidate lines and
joins the rest with CR LF.  The main result is `signalingSdp_spec`, for every string: which
lines travel, in which order, that none of them is a candidate, and that it changes nothing
the second time.
-/
import IrohExperiment.Strings.Lines

namespace IrohExperiment.Peer

open Strings

/-- The code units of a literal. -/
def units (literal : String) : List UInt16 := literal.toList.map fun c => UInt16.ofNat c.toNat

/-- `\r` -/
def carriageReturn : UInt16 := 13

/-- `\n` -/
def lineFeed : UInt16 := 10

/-- `line=>!line.startsWith("a=candidate:") && line!=="a=end-of-candidates"` -/
def travels (line : List UInt16) : Bool :=
  !(units "a=candidate:").isPrefixOf line && line != units "a=end-of-candidates"

/-- `signalingSdp` -/
def signalingSdp (sdp : List UInt16) : List UInt16 :=
  joinLines carriageReturn lineFeed ((splitLines carriageReturn lineFeed sdp).filter travels)

example : signalingSdp (units "v=0\na=candidate:1\r\r\na=candidate:2\r\nb\r") =
    units "v=0\r\nb\r" := by
  decide

theorem travels_iff {line : List UInt16} :
    travels line = true ↔ ¬ units "a=candidate:" <+: line ∧ line ≠ units "a=end-of-candidates" := by
  rw [travels, Bool.and_eq_true, bne_iff_ne, Bool.not_eq_true', ← List.isPrefixOf_iff_prefix,
    Bool.not_eq_true]

/-- The lines of a description, with LF and CR LF as line breaks, are filtered and put
together again with CR LF.  What results has no other lines than those that remain, or one
empty line where none does; so no candidate is among them, and filtering again changes
nothing. -/
theorem signalingSdp_spec (sdp : List UInt16) :
    ∃ lines, Lines carriageReturn lineFeed sdp lines ∧
      signalingSdp sdp = joinLines carriageReturn lineFeed (lines.filter travels) ∧
      (∀ out, Lines carriageReturn lineFeed (signalingSdp sdp) out →
        out = (if lines.filter travels = [] then [[]] else lines.filter travels) ∧
        ∀ line ∈ out, ¬ units "a=candidate:" <+: line ∧ line ≠ units "a=end-of-candidates") ∧
      signalingSdp (signalingSdp sdp) = signalingSdp sdp := by
  have hne : carriageReturn ≠ lineFeed := by decide
  refine ⟨_, lines_splitLines hne sdp, rfl, fun out hout => ?_, filterLines_idem hne sdp⟩
  have hlines : out = _ :=
    (splitLines_of_lines hne hout).symm.trans (splitLines_filterLines hne sdp)
  refine ⟨hlines, fun line hline => travels_iff.mp ?_⟩
  rw [hlines] at hline
  split_ifs at hline with hnone
  · rw [List.mem_singleton.mp hline]
    decide
  · exact (List.mem_filter.mp hline).2

end IrohExperiment.Peer
