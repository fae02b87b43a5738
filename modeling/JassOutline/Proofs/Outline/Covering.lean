import JassOutline.Proofs.Outline.Formation

/-!
# Where the nodes of an outline stand

`FillsToEnd` says what the outline of any stream is. `Covers` says less and is easier to use: the
lines and blocks of a forest stand one behind the other on a stretch of lines, each block on the
lines from its opener to its closer, if it has one, and no line of the stretch is left out.

## Key results

- `covers_build`: the outline of a stream covers it
-/

namespace JassOutline.Outline

/-- The nodes stand on the lines, one behind the other. A block stands on the line that opens it,
what its children stand on, and the line that closes it, if one does. -/
inductive Covers : List SourceLine → List Node → Prop where
  | nil : Covers [] []
  | line {record : SourceLine} {rest : List SourceLine} {nodes : List Node} :
    Covers rest nodes → Covers (record :: rest) (.line record :: nodes)
  | block {kind : BlockKind} {region : Region} {opener : SourceLine} {closer? : Option SourceLine}
      {inside rest : List SourceLine} {children nodes : List Node} :
    region.start = opener.region.start →
    Covers inside children → Covers rest nodes →
    Covers (opener :: inside ++ closer?.toList ++ rest)
      (.block kind region closer?.isSome (headerNodes kind opener ++ children) :: nodes)

theorem Covers.append {lines more : List SourceLine} {nodes moreNodes : List Node}
    (h : Covers lines nodes) (hmore : Covers more moreNodes) :
    Covers (lines ++ more) (nodes ++ moreNodes) := by
  induction h with
  | nil => exact hmore
  | line _ ih => exact .line ih
  | block hregion hinside _ _ ih =>
    rw [List.append_assoc]
    exact .block hregion hinside ih

/-- What lines leave in a block stands on the lines. -/
theorem Fills.covers {kind? : Option BlockKind} {lines : List SourceLine} {nodes : List Node}
    (h : Fills kind? lines nodes) : Covers lines nodes := by
  induction h with
  | nil => exact .nil
  | line _ _ ih => exact .line ih
  | @block _ kind opener closer inside rest children nodes _ _ _ _ ihInside ihRest =>
    have hblock : Covers (opener :: inside ++ (some closer).toList ++ rest)
        (.block kind ⟨opener.region.start, closer.region.stop⟩ true
          (headerNodes kind opener ++ children) :: nodes) := .block rfl ihInside ihRest
    rw [List.append_assoc] at hblock
    exact hblock

/-- A block that is left open stands on all lines behind its opener. -/
theorem FillsToEnd.covers {kind? : Option BlockKind} {lines : List SourceLine} {nodes : List Node}
    (h : FillsToEnd kind? lines nodes) : Covers lines nodes := by
  induction h with
  | filled h => exact h.covers
  | @unclosed _ kind opener front inside children nodes hfront _ _ ih =>
    refine hfront.covers.append ?_
    have hblock : Covers (opener :: inside ++ Option.none.toList ++ [])
        [.block kind ⟨opener.region.start, children.foldl stopBehind opener.region.stop⟩ false
          (headerNodes kind opener ++ children)] := .block rfl ih .nil
    rwa [Option.toList_none, List.append_nil, List.append_nil] at hblock

/-- The outline of a stream stands on all of it. -/
theorem covers_build (source : Nat) (lines : List SourceLine) :
    Covers lines (build source lines).1.nodes :=
  (fillsToEnd_build source lines).covers

end JassOutline.Outline
