import JassOutline.Proofs.Declaration.Attachment
import JassOutline.Proofs.Layout.Outline

/-!
# Where declarations lie

If the regions of a tree nest, then so do those of what it declares: the parts of a function, a
method, a struct or a library lie within it. Functions and methods come from blocks of which none is
read inside another one, so no position lies in two of them.

## Key results

- `Declarations.isWithin_ofNodes`: what the nodes declare lies where the nodes do
- `Declarations.spread_routines_ofNodes`: the functions and methods do not overlap
-/

namespace JassOutline

/-! ### The parts of declarations -/

/-- The regions of the parameters. -/
def Native.parts (native : Native) : List Region :=
  native.parameters.map Parameter.region

/-- The regions of the parameters and of what the body declares. -/
def Function.parts (function : Function) : List Region :=
  function.parameters.map Parameter.region ++ function.locals.map (·.region) ++
    function.globals.map (·.region)

/-- The regions of the parameters and of what the body declares. -/
def Method.parts (method : Method) : List Region :=
  method.parameters.map Parameter.region ++ method.locals.map (·.region) ++
    method.globals.map (·.region)

/-- The regions of the members and methods. -/
def Struct.parts (struct : Struct) : List Region :=
  struct.members.map (·.region) ++ struct.methods.map (·.region)

/-- The regions of what the library declares. -/
def Library.parts (library : Library) : List Region :=
  library.globals.map (·.region) ++ library.functions.map (·.region) ++
    library.structs.map (·.region)

/-- The parts lie within the region. -/
def Region.Holds (outer : Region) (parts : List Region) : Prop :=
  ∀ part ∈ parts, part.Within outer

theorem Region.Holds.append {outer : Region} {a b : List Region} (ha : outer.Holds a)
    (hb : outer.Holds b) : outer.Holds (a ++ b) :=
  List.forall_mem_append.2 ⟨ha, hb⟩

theorem Region.Holds.trans {inner outer : Region} {parts : List Region} (h : inner.Holds parts)
    (hinner : inner.Within outer) : outer.Holds parts :=
  fun part hpart => (h part hpart).trans hinner

/-! ### The parts of a line -/

theorem Region.EndsLine.within {region : Region} {record : SourceLine} (h : region.EndsLine record)
    (hfits : record.FitsText) : region.Within record.region := by
  obtain rfl | ⟨token, htoken, rfl⟩ := h
  · exact ⟨Position.le_refl _, hfits.start_le_stop, Position.le_refl _⟩
  · have hwithin := (SourceLine.row_tokens hfits).within token htoken
    exact ⟨hwithin.start_le, Position.le_trans hwithin.ordered hwithin.le_stop,
      Position.le_refl _⟩

theorem Token.after?_suffix {p : Token → Bool} {tokens rest : List Token}
    (h : after? p tokens = some rest) : rest <:+ tokens := by
  induction tokens with
  | nil => cases h
  | cons token tokens ih =>
    rw [after?] at h
    split at h
    · cases h
      exact List.suffix_cons ..
    · exact (ih h).trans (List.suffix_cons ..)

theorem Signature.parameterTokens_sublist (tokens : List Token) :
    (parameterTokens tokens).Sublist tokens := by
  unfold parameterTokens
  split
  · exact List.nil_sublist _
  · next rest hrest =>
    have hsuffix := (Token.after?_suffix hrest).sublist
    split
    · exact hsuffix
    · exact (List.takeWhile_sublist _).trans hsuffix

namespace Parameter

variable {region : Region} {tokens : List Token}

/-- A parameter reaches from its type to its name, which stands behind the type. -/
theorem within_ofTypeAndName {type name : Token} (h : Token.Row region (type :: name :: tokens)) :
    (ofTypeAndName type name).region.Within region := by
  have htype := h.within type (by simp)
  have hname := h.within name (by simp)
  have horder : type.stop ≤ name.start := (List.pairwise_cons.1 h.pairwise).1 name (by simp)
  constructor
  · exact htype.start_le
  · exact Position.le_trans htype.ordered (Position.le_trans horder hname.ordered)
  · exact hname.le_stop

/-- The parameters of a list lie where its tokens do, whatever the list goes on with. -/
theorem within_list (h : Token.Row region tokens) :
    (∀ parameter ∈ listFrom tokens, parameter.region.Within region) ∧
      (∀ type, Token.Row region (type :: tokens) →
        ∀ parameter ∈ listFromName type tokens, parameter.region.Within region) ∧
      ∀ parameter ∈ listFromComma tokens, parameter.region.Within region := by
  induction tokens with
  | nil =>
    refine ⟨by simp [listFrom], fun type htype => ?_, by simp [listFromComma]⟩
    rw [listFromName, List.forall_mem_singleton]
    exact htype.within type (by simp)
  | cons token rest ih =>
    obtain ⟨ihType, ihName, ihComma⟩ := ih (h.sublist (List.sublist_cons_self ..))
    -- A type, a name and the next comma are read one after the other, each by a reader of its own
    refine ⟨?_, fun type htype => ?_, ?_⟩
    · rw [listFrom]
      split
      · simp
      · split
        · exact ihName token h
        · exact ihType
    · rw [listFromName]
      split
      · exact List.forall_mem_cons.2 ⟨within_ofTypeAndName htype, ihComma⟩
      · split
        · exact List.forall_mem_cons.2 ⟨htype.within type (by simp), ihType⟩
        · exact ihName type (htype.sublist ((List.sublist_cons_self ..).cons_cons _))
    · rw [listFromComma]
      split
      · exact ihType
      · exact ihComma

end Parameter

/-- The parameters of a line lie on it. -/
theorem Signature.parameters_within {record : SourceLine} (keyword : String)
    (hfits : record.FitsText) :
    record.region.Holds ((ofTokens keyword record.tokens).parameters.map Parameter.region) := by
  have hrow := (SourceLine.row_tokens hfits).sublist (parameterTokens_sublist record.tokens)
  exact List.forall_mem_map.2 (Parameter.within_list hrow).1

/-! ### What nodes declare -/

namespace Declarations

/-- The declarations lie within the region, and each holds its parts. -/
structure IsWithin (declared : Declarations) (outer : Region) : Prop where
  natives : ∀ native ∈ declared.natives, native.region.Holds native.parts
  globals : ∀ v ∈ declared.globals, v.region.Within outer
  locals : ∀ v ∈ declared.locals, v.region.Within outer
  members : ∀ member ∈ declared.members, member.region.Within outer
  functions : ∀ function ∈ declared.functions,
    function.region.Within outer ∧ function.region.Holds function.parts
  methods : ∀ method ∈ declared.methods,
    method.region.Within outer ∧ method.region.Holds method.parts
  structs : ∀ struct ∈ declared.structs,
    struct.region.Within outer ∧ struct.region.Holds struct.parts ∧
      ∀ method ∈ struct.methods, method.region.Holds method.parts
  libraries : ∀ library ∈ declared.libraries, library.region.Holds library.parts ∧
    (∀ function ∈ library.functions, function.region.Holds function.parts) ∧
    ∀ struct ∈ library.structs, struct.region.Holds struct.parts ∧
      ∀ method ∈ struct.methods, method.region.Holds method.parts

variable {a b inner : Declarations} {outer region : Region} {record : SourceLine}

theorem isWithin_none : none.IsWithin outer := by
  constructor <;> simp [none]

theorem IsWithin.append (ha : a.IsWithin outer) (hb : b.IsWithin outer) :
    (a ++ b).IsWithin outer where
  natives := List.forall_mem_append.2 ⟨ha.natives, hb.natives⟩
  globals := List.forall_mem_append.2 ⟨ha.globals, hb.globals⟩
  locals := List.forall_mem_append.2 ⟨ha.locals, hb.locals⟩
  members := List.forall_mem_append.2 ⟨ha.members, hb.members⟩
  functions := List.forall_mem_append.2 ⟨ha.functions, hb.functions⟩
  methods := List.forall_mem_append.2 ⟨ha.methods, hb.methods⟩
  structs := List.forall_mem_append.2 ⟨ha.structs, hb.structs⟩
  libraries := List.forall_mem_append.2 ⟨ha.libraries, hb.libraries⟩

theorem isWithin_memberLine (comments : List CommentLine) (hfits : record.FitsText)
    (hwithin : record.region.Within outer) :
    (ofLine .struct .other comments record).IsWithin outer := by
  have hmember := ((Member.endsLine_ofLine record).within hfits).trans hwithin
  rw [ofLine]
  split
  · exact { isWithin_none with members := List.forall_mem_singleton.2 hmember }
  · exact isWithin_none

theorem isWithin_globalLine (comments : List CommentLine)
    (hwithin : record.region.Within outer) :
    (ofLine .globals .other comments record).IsWithin outer := by
  rw [ofLine]
  split
  · exact { isWithin_none with globals := List.forall_mem_singleton.2 hwithin }
  · exact isWithin_none

/-- What a line declares lies on the line. -/
theorem isWithin_ofLine (scope : Scope) (role : LineRole) (comments : List CommentLine)
    (hfits : record.FitsText) (hwithin : record.region.Within outer) :
    (ofLine scope role comments record).IsWithin outer := by
  have hlocal := ((LocalVariable.endsLine_ofLine record).within hfits).trans hwithin
  unfold ofLine
  split
  · exact { isWithin_none with
      natives := List.forall_mem_singleton.2 (Signature.parameters_within "native" hfits) }
  · exact { isWithin_none with }
  · exact { isWithin_none with locals := List.forall_mem_singleton.2 hlocal }
  -- A line may declare a member or a global variable whatever its first word says
  · exact isWithin_memberLine comments hfits hwithin
  · exact isWithin_memberLine comments hfits hwithin
  · exact isWithin_globalLine comments hwithin
  · exact isWithin_globalLine comments hwithin
  · exact isWithin_globalLine comments hwithin
  · exact isWithin_none

/-- The parameters in the header of a block lie within the block. -/
theorem holds_parameters (keyword : String) (hfits : record.FitsText)
    (hwithin : record.region.Within region) :
    region.Holds
      ((Signature.ofTokens keyword record.tokens).parameters.map Parameter.region) :=
  (Signature.parameters_within keyword hfits).trans hwithin

/-- What a block declares lies within the block. -/
theorem isWithin_ofBlock (kind : BlockKind) {header? : Option SourceLine}
    (comments : List CommentLine) (hinner : inner.IsWithin region) (hregion : region.Within outer)
    (hheader : ∀ header, header? = some header →
      header.FitsText ∧ header.region.Within region) :
    (ofBlock kind region header? comments inner).IsWithin outer := by
  have hglobals : region.Holds (inner.globals.map (·.region)) :=
    List.forall_mem_map.2 hinner.globals
  have hlocals : region.Holds (inner.locals.map (·.region)) := List.forall_mem_map.2 hinner.locals
  cases kind with
  | globals =>
    exact { isWithin_none with globals := fun v hv => (hinner.globals v hv).trans hregion }
  | function =>
    -- The parameters stand in the header, the variables in the lines between
    refine { isWithin_none with functions := List.forall_mem_singleton.2 ?_ }
    cases header? with
    | none => exact ⟨hregion, hlocals.append hglobals⟩
    | some header =>
      obtain ⟨hfits, hwithin⟩ := hheader header rfl
      have hparameters := holds_parameters "function" hfits hwithin
      exact ⟨hregion, (hparameters.append hlocals).append hglobals⟩
  | method =>
    refine { isWithin_none with methods := List.forall_mem_singleton.2 ?_ }
    cases header? with
    | none => exact ⟨hregion, hlocals.append hglobals⟩
    | some header =>
      obtain ⟨hfits, hwithin⟩ := hheader header rfl
      have hparameters := holds_parameters "method" hfits hwithin
      exact ⟨hregion, (hparameters.append hlocals).append hglobals⟩
  | struct =>
    -- Members and methods lie in the struct, and the parts of a method in the method
    have hmembers : region.Holds (inner.members.map (·.region)) :=
      List.forall_mem_map.2 hinner.members
    have hmethods : region.Holds (inner.methods.map (·.region)) :=
      List.forall_mem_map.2 fun method hmethod => (hinner.methods method hmethod).1
    have hparts : ∀ method ∈ inner.methods, method.region.Holds method.parts :=
      fun method hmethod => (hinner.methods method hmethod).2
    refine { isWithin_none with structs := List.forall_mem_singleton.2 ?_ }
    cases header? <;> exact ⟨hregion, hmembers.append hmethods, hparts⟩
  | library =>
    have hfunctions : region.Holds (inner.functions.map (·.region)) :=
      List.forall_mem_map.2 fun function hfunction => (hinner.functions function hfunction).1
    have hstructs : region.Holds (inner.structs.map (·.region)) :=
      List.forall_mem_map.2 fun struct hstruct => (hinner.structs struct hstruct).1
    have hparts := (hglobals.append hfunctions).append hstructs
    have hfunctionParts : ∀ function ∈ inner.functions, function.region.Holds function.parts :=
      fun function hfunction => (hinner.functions function hfunction).2
    have hstructParts : ∀ struct ∈ inner.structs, struct.region.Holds struct.parts ∧
        ∀ method ∈ struct.methods, method.region.Holds method.parts :=
      fun struct hstruct => (hinner.structs struct hstruct).2
    refine { isWithin_none with libraries := List.forall_mem_singleton.2 ?_ }
    refine ⟨?_, hfunctionParts, hstructParts⟩
    -- The region of a library does not depend on its header
    cases header? with
    | none => exact hparts
    | some header =>
      show (Library.ofHeader header region).region.Holds _
      rw [Library.region_ofHeader]
      exact hparts

/-- What nodes declare lies where the nodes do. -/
theorem isWithin_ofNodes {nodes : List Node} (h : Node.Nested nodes) (scope : Scope)
    (atHeader : Bool) (comments : List CommentLine)
    (hwithin : ∀ node ∈ nodes, node.region.Within outer) :
    (ofNodes scope atHeader comments nodes).IsWithin outer := by
  induction h generalizing scope atHeader comments outer with
  | nil =>
    rw [ofNodes]
    exact isWithin_none
  | line hfits _ _ ih =>
    -- Only a line that is neither passed over nor a comment declares anything
    rw [List.forall_mem_cons] at hwithin
    rw [ofNodes]
    split
    · exact ih _ _ _ hwithin.2
    · split
      · exact ih _ _ _ hwithin.2
      · exact (isWithin_ofLine _ _ _ hfits hwithin.1).append (ih _ _ _ hwithin.2)
  | @block kind region isClosed children rest _ hchildren hnested _ _ ihChildren ih =>
    rw [List.forall_mem_cons] at hwithin
    rw [ofNodes]
    split
    · refine (isWithin_ofBlock kind comments (ihChildren _ _ _ hchildren) hwithin.1 ?_).append
        (ih _ _ _ hwithin.2)
      intro header hheader
      obtain ⟨-, body, rfl⟩ := Block.header?_eq_some.1 hheader
      -- The header of a block is its first line, and that lies within it
      cases hnested with
      | line hfits _ _ => exact ⟨hfits, hchildren (.line header) List.mem_cons_self⟩
    · exact ih _ _ _ hwithin.2

/-! ### Functions and methods -/

/-- The regions of all functions and methods, at any depth. -/
def routines (declared : Declarations) : List Region :=
  declared.functions.map (·.region) ++
    (declared.libraries.flatMap Library.functions).map (·.region) ++
    (declared.structs.flatMap Struct.methods).map (·.region) ++
    ((declared.libraries.flatMap Library.structs).flatMap Struct.methods).map (·.region) ++
    declared.methods.map (·.region)

theorem routines_append_perm (a b : Declarations) :
    (a ++ b).routines.Perm (a.routines ++ b.routines) := by
  change (append a b).routines.Perm _
  rw [List.perm_iff_count]
  intro region
  simp only [routines, append, List.map_append, List.flatMap_append, List.count_append]
  omega

theorem routines_ofLine (scope : Scope) (role : LineRole) (comments : List CommentLine)
    (record : SourceLine) : (ofLine scope role comments record).routines = [] := by
  obtain ⟨hfunctions, hmethods, hstructs, hlibraries⟩ := blocks_ofLine scope role comments record
  simp [routines, hfunctions, hmethods, hstructs, hlibraries]

/-- A block is a function or a method itself, or it declares some of those inside. -/
theorem routines_ofBlock (kind : BlockKind) (region : Region) (header? : Option SourceLine)
    (comments : List CommentLine) (inner : Declarations) :
    (ofBlock kind region header? comments inner).routines = [region] ∨
      (ofBlock kind region header? comments inner).routines.Sublist inner.routines := by
  cases kind with
  | globals => exact .inr (List.nil_sublist _)
  | function => cases header? <;> exact .inl rfl
  | method => cases header? <;> exact .inl rfl
  | struct =>
    refine .inr ?_
    have hroutines : (ofBlock .struct region header? comments inner).routines =
        inner.methods.map (·.region) := by
      simp [ofBlock, routines, none]
    rw [hroutines, routines]
    exact List.sublist_append_right ..
  | library =>
    refine .inr ?_
    have hroutines : (ofBlock .library region header? comments inner).routines =
        inner.functions.map (·.region) ++
          (inner.structs.flatMap Struct.methods).map (·.region) := by
      simp [ofBlock, routines, none]
    rw [hroutines, routines]
    refine List.Sublist.trans ?_ (List.sublist_append_left ..)
    refine List.Sublist.trans ?_ (List.sublist_append_left ..)
    exact (List.sublist_append_left ..).append (List.Sublist.refl _)

/-- The regions do not overlap, and each lies within one of the nodes. -/
structure Spread (regions : List Region) (nodes : List Node) : Prop where
  within : ∀ region ∈ regions, ∃ node ∈ nodes, region.Within node.region
  apart : regions.Pairwise Region.Apart

variable {regions others : List Region} {nodes rest : List Node} {node : Node}

theorem Spread.cons (h : Spread regions nodes) (node : Node) : Spread regions (node :: nodes) where
  within := fun region hregion => by
    obtain ⟨other, hother, hwithin⟩ := h.within region hregion
    exact ⟨other, List.mem_cons_of_mem _ hother, hwithin⟩
  apart := h.apart

theorem Spread.sublist (h : Spread regions nodes) (hothers : others.Sublist regions) :
    Spread others nodes where
  within := fun region hregion => h.within region (hothers.subset hregion)
  apart := h.apart.sublist hothers

theorem Spread.perm (h : Spread regions nodes) (hothers : others.Perm regions) :
    Spread others nodes where
  within := fun region hregion => h.within region (hothers.subset hregion)
  apart := (hothers.pairwise_iff Region.Apart.symm).2 h.apart

/-- What is spread over a node and what is spread over the nodes below it. -/
theorem Spread.append (h : Spread regions [node]) (hothers : Spread others rest)
    (habove : ∀ other ∈ rest, node.region.Above other.region) :
    Spread (regions ++ others) (node :: rest) where
  within := by
    refine List.forall_mem_append.2 ⟨fun region hregion => ?_, (hothers.cons node).within⟩
    obtain ⟨other, hother, hwithin⟩ := h.within region hregion
    exact ⟨node, List.mem_cons_self, List.mem_singleton.1 hother ▸ hwithin⟩
  apart := by
    refine List.pairwise_append.2 ⟨h.apart, hothers.apart, fun a ha b hb => ?_⟩
    obtain ⟨upper, hupper, hawithin⟩ := h.within a ha
    obtain ⟨lower, hlower, hbwithin⟩ := hothers.within b hb
    obtain rfl := List.mem_singleton.1 hupper
    exact (habove lower hlower).apart hawithin hbwithin

/-- What is spread over the children of a block is spread over the block. -/
theorem Spread.block {kind : BlockKind} {region : Region} {isClosed : Bool} {children : List Node}
    (h : Spread regions children) (hchildren : ∀ child ∈ children, child.region.Within region) :
    Spread regions [.block kind region isClosed children] where
  within := fun inner hinner => by
    obtain ⟨child, hchild, hwithin⟩ := h.within inner hinner
    exact ⟨_, List.mem_singleton_self _, hwithin.trans (hchildren child hchild)⟩
  apart := h.apart

/-- The functions and methods do not overlap, and each lies within one of the nodes. -/
theorem spread_routines_ofNodes (h : Node.Nested nodes) (scope : Scope) (atHeader : Bool)
    (comments : List CommentLine) :
    Spread (ofNodes scope atHeader comments nodes).routines nodes := by
  induction h generalizing scope atHeader comments with
  | nil =>
    rw [ofNodes]
    exact ⟨by simp [routines, none], .nil⟩
  | @line record rest _ _ _ ih =>
    have hrest := fun atHeader comments => (ih scope atHeader comments).cons (.line record)
    rw [ofNodes]
    split
    · exact hrest false []
    · split
      · exact hrest false _
      · -- A line by itself declares no routine
        refine (hrest false []).perm ((routines_append_perm _ _).trans ?_)
        rw [routines_ofLine, List.nil_append]
  | @block kind region isClosed children rest horder hchildren _ habove _ ihChildren ih =>
    have hrest := ih scope false []
    rw [ofNodes]
    split
    · refine Spread.perm (Spread.append ?_ hrest habove) (routines_append_perm _ _)
      -- A block yields itself or what is inside of it, and in both cases these lie within the block
      obtain hself | hinside := routines_ofBlock kind region
        (Block.header? ⟨kind, region, isClosed, children⟩) comments
        (ofNodes (.inside kind) kind.hasHeader [] children)
      · -- The block itself is a function or a method
        rw [hself]
        have hregion : region.Within region :=
          ⟨Position.le_refl _, horder, Position.le_refl _⟩
        exact ⟨List.forall_mem_singleton.2 ⟨_, List.mem_singleton_self _, hregion⟩,
          List.pairwise_singleton _ _⟩
      · exact ((ihChildren _ _ _).sublist hinside).block hchildren
    · exact hrest.cons _

end Declarations

end JassOutline
