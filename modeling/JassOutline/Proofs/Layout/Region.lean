import JassOutline.Proofs.Token.Tiling

/-!
# Regions inside of each other and above each other

A region may lie within another one, stand above it, or be apart from it. A line fits its text if
its region is the text on one line, which is so for every line that is cut from a text or given
another text later. The tokens of such a line stand in its region one behind the other.

## Key results

- `Region.Above.apart`: what lies within two regions, one above the other, is apart
- `SourceLine.row_tokens`: where the tokens of a line stand
-/

namespace JassOutline

open Text

namespace Region

/-- The first region lies in the second one, and does not end before it starts. -/
structure Within (inner outer : Region) : Prop where
  start_le : outer.start ≤ inner.start
  ordered : inner.start ≤ inner.stop
  le_stop : inner.stop ≤ outer.stop

/-- The first region ends on a line in front of the one where the second starts. -/
def Above (a b : Region) : Prop :=
  a.stop.line < b.start.line

/-- No position lies in both regions. -/
def Apart (a b : Region) : Prop :=
  ∀ p, ¬(a.contains p = true ∧ b.contains p = true)

variable {a b c inner outer : Region}

theorem Within.trans (hab : a.Within b) (hbc : b.Within c) : a.Within c where
  start_le := Position.le_trans hbc.start_le hab.start_le
  ordered := hab.ordered
  le_stop := Position.le_trans hab.le_stop hbc.le_stop

theorem Apart.symm (h : a.Apart b) : b.Apart a :=
  fun p hp => h p hp.symm

/-- What lies within regions of which one is above the other. -/
theorem Above.apart (h : outer.Above c) (ha : a.Within outer) (hb : b.Within c) : a.Apart b := by
  intro p hp
  rw [contains_iff, contains_iff] at hp
  have hstop := Position.le_trans hp.1.2 ha.le_stop
  have hstart := Position.le_trans hb.start_le hp.2.1
  rw [Above] at h
  rw [Position.le_iff] at hstop hstart
  omega

end Region

namespace Token

/-- The tokens stand in the region one behind the other. -/
structure Row (region : Region) (tokens : List Token) : Prop where
  within : ∀ token ∈ tokens, token.region.Within region
  pairwise : tokens.Pairwise fun token next => token.stop ≤ next.start

theorem Row.sublist {region : Region} {tokens some : List Token} (h : Row region tokens)
    (hsome : some.Sublist tokens) : Row region some where
  within := fun token htoken => h.within token (hsome.subset htoken)
  pairwise := h.pairwise.sublist hsome

end Token

namespace SourceLine

variable {record : SourceLine}

/-- The region of the line is its text on one line. -/
structure FitsText (record : SourceLine) : Prop where
  start_eq : record.region.start = ⟨record.line, 0⟩
  stop_eq : record.region.stop = ⟨record.line, byteLength record.text.toList⟩

theorem fitsText_ofChars (text : List Char) (line offset : Nat) :
    (ofChars text line offset).FitsText where
  start_eq := rfl
  stop_eq := by rw [ofChars, String.toList_ofList]; rfl

theorem FitsText.withText (h : record.FitsText) (text : List Char) :
    (record.withText text).FitsText where
  start_eq := h.start_eq
  stop_eq := by
    have hline : record.region.stop.line = record.line := by rw [h.stop_eq]
    rw [SourceLine.withText, String.toList_ofList]
    simp only [Region.withStop, hline]
    rfl

/-- The tokens of a line stand in its region one behind the other. -/
theorem row_tokens (h : record.FitsText) : Token.Row record.region record.tokens := by
  have htiles := Token.tiles_tokenizeFrom record.line 0 record.text.toList
  have hcolumns := htiles.columns
  refine ⟨fun token htoken => ?_, ?_⟩
  · obtain ⟨hline, hordered, hstop⟩ := hcolumns token htoken
    constructor
    · rw [h.start_eq]
      exact .inr ⟨hline.symm, Nat.zero_le _⟩
    · exact .inr ⟨rfl, hordered⟩
    · rw [h.stop_eq]
      exact .inr ⟨hline, Nat.zero_add (byteLength _) ▸ hstop⟩
  · refine htiles.pairwise.imp_of_mem fun {token next} htoken hnext hle => ?_
    rw [Position.le_iff]
    exact .inr ⟨(hcolumns token htoken).1.trans (hcolumns next hnext).1.symm, hle⟩

end SourceLine

end JassOutline
