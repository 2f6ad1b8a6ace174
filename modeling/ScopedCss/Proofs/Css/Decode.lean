import ScopedCss.Proofs.Css.Layout
import ScopedCss.Stylesheet

/-! # Reading blocks back

The text of blocks is read character by character. Braces and semicolons are signs, and the reader
keeps what it has read since the last of them and the blocks that are still open; at a sign it takes
off what the layout has put around a prelude or a declaration (`Layout.atSign`).

`Layout.Reads` says that after the text of a block the reader has the block, whatever was open
before and whatever comes after. It holds of every block in whose texts no sign stands and in whose
names no colon does (`Block.Separable.reads`). So for each style `decode` undoes `render`
(`render_decodes`).
-/

set_option autoImplicit false

namespace ScopedCss.Css

/-! ## Signs -/

/-- The characters at which a text is taken apart. -/
inductive Sign where
  /-- An opening brace. -/
  | opening
  /-- A closing brace. -/
  | closing
  | semicolon
  deriving DecidableEq

def sign? (c : Char) : Option Sign :=
  if c = '\x7b' then some .opening
  else if c = '\x7d' then some .closing
  else if c = ';' then some .semicolon
  else none

def SignFree (cs : List Char) : Prop := ∀ c ∈ cs, sign? c = none

instance (cs : List Char) : Decidable (SignFree cs) :=
  List.decidableBAll _ cs

theorem sign?_of_isBlank {c : Char} (h : Text.isBlank c) : sign? c = none := by
  have hne : ∀ d, Text.isBlank d = false → c ≠ d := by
    rintro d hd rfl
    rw [h] at hd
    exact absurd hd (by decide)
  rw [sign?, if_neg (hne _ (by decide)), if_neg (hne _ (by decide)), if_neg (hne _ (by decide))]

theorem signFree_of_blank {cs : List Char} (h : ∀ c ∈ cs, Text.isBlank c) : SignFree cs :=
  fun c hc => sign?_of_isBlank (h c hc)

theorem SignFree.append {cs ds : List Char} (hcs : SignFree cs) (hds : SignFree ds) :
    SignFree (cs ++ ds) :=
  List.forall_mem_append.2 ⟨hcs, hds⟩

/-- A declaration can be told apart from what stands around it, and its name from its value. -/
structure Declaration.Separable (d : Declaration) : Prop where
  name : SignFree d.name.toList
  colon : ':' ∉ d.name.toList
  value : SignFree d.value.toList

instance (d : Declaration) : Decidable d.Separable :=
  decidable_of_iff (SignFree d.name.toList ∧ ':' ∉ d.name.toList ∧ SignFree d.value.toList)
    ⟨fun ⟨hname, hcolon, hvalue⟩ => ⟨hname, hcolon, hvalue⟩,
      fun h => ⟨h.name, h.colon, h.value⟩⟩

/-- No sign stands in a text of the block or of a block nested in it. -/
inductive Block.Separable : Block → Prop
  | mk {prelude : String} {declarations : List Declaration} {children : List Block}
      (hprelude : SignFree prelude.toList) (hdeclarations : ∀ d ∈ declarations, d.Separable)
      (hchildren : ∀ child ∈ children, child.Separable) :
      Separable ⟨prelude, declarations, children⟩

/-! ## The reader -/

/-- Adds a declaration to a block that is open. -/
def Block.declare (block : Block) (d : Declaration) : Block :=
  { block with declarations := block.declarations ++ [d] }

/-- Adds a nested block to a block that is open. -/
def Block.nest (block child : Block) : Block :=
  { block with children := block.children ++ [child] }

/-- How far a text has been read. -/
structure Reading where
  /-- The characters since the last sign. -/
  pending : List Char
  /-- The blocks that are open, the innermost first; the last one stands for the whole text. -/
  stack : List Block

namespace Layout

/-- The prelude in the characters before an opening brace. -/
def readPrelude (layout : Layout) (level : Nat) (cs : List Char) : String :=
  let own := cs.drop (layout.margin level).length
  String.ofList (own.take (own.length - layout.gap.length))

/-- The declaration in the characters before a semicolon. -/
def readDeclaration (layout : Layout) (level : Nat) (cs : List Char) : Declaration :=
  let own := cs.drop (layout.margin level).length
  ⟨String.ofList (own.takeWhile (· != ':')),
    String.ofList ((own.dropWhile (· != ':')).drop (1 + layout.gap.length))⟩

/-- The open blocks after a sign with these characters before it. A declaration may stand before a
closing brace, if the layout leaves out its semicolon; it is known by its colon. -/
def atSign (layout : Layout) : Sign → List Char → List Block → Option (List Block)
  | .opening, cs, block :: outer =>
      some (⟨layout.readPrelude outer.length cs, [], []⟩ :: block :: outer)
  | .semicolon, cs, block :: outer =>
      some (block.declare (layout.readDeclaration outer.length cs) :: outer)
  | .closing, cs, block :: outer :: rest =>
      let closed :=
        if ':' ∈ cs then block.declare (layout.readDeclaration (rest.length + 1) cs) else block
      some (outer.nest closed :: rest)
  | _, _, _ => none

def read (layout : Layout) (reading : Reading) (c : Char) : Option Reading :=
  match sign? c with
  | none => some { reading with pending := reading.pending ++ [c] }
  | some sign => (layout.atSign sign reading.pending reading.stack).map fun stack => ⟨[], stack⟩

def readAll (layout : Layout) (reading : Reading) (cs : List Char) : Option Reading :=
  cs.foldlM layout.read reading

end Layout

/-- Reads the blocks back from their text in the style of a configuration. -/
def decode (config : Config) (text : String) : Option (List Block) :=
  match (Layout.ofConfig config).readAll ⟨[], [⟨"", [], []⟩]⟩ (lineEnd config ++ text.toList) with
  | some ⟨_, [whole]⟩ => some whole.children
  | _ => none

namespace Layout

variable (layout : Layout)

/-! ## Reading up to a sign -/

theorem readAll_append (reading : Reading) (cs ds : List Char) :
    layout.readAll reading (cs ++ ds) =
      (layout.readAll reading cs).bind fun later => layout.readAll later ds :=
  List.foldlM_append

theorem readAll_of_signFree {cs : List Char} (h : SignFree cs) (pending : List Char)
    (stack : List Block) :
    layout.readAll ⟨pending, stack⟩ cs = some ⟨pending ++ cs, stack⟩ := by
  induction cs generalizing pending with
  | nil => rw [List.append_nil]; rfl
  | cons c cs ih =>
      obtain ⟨hc, hcs⟩ := List.forall_mem_cons.1 h
      have hread : layout.read ⟨pending, stack⟩ c = some ⟨pending ++ [c], stack⟩ := by
        rw [read, hc]
      have hfold : layout.readAll ⟨pending, stack⟩ (c :: cs) =
          (layout.read ⟨pending, stack⟩ c).bind fun later => layout.readAll later cs := rfl
      rw [hfold, hread, Option.bind_some, ih hcs, List.append_assoc, List.singleton_append]

/-- After the characters up to a sign, and the sign, nothing is pending. -/
theorem readAll_sign {cs : List Char} (h : SignFree cs) {c : Char} {sign : Sign}
    (hc : sign? c = some sign) {stack later : List Block}
    (hsign : layout.atSign sign cs stack = some later) (more : List Char) :
    layout.readAll ⟨[], stack⟩ (cs ++ c :: more) = layout.readAll ⟨[], later⟩ more := by
  have hread : layout.read ⟨cs, stack⟩ c = some ⟨[], later⟩ := by
    unfold read
    rw [hc]
    show (layout.atSign sign cs stack).map _ = _
    rw [hsign]
    rfl
  have hfold : layout.readAll ⟨cs, stack⟩ (c :: more) =
      (layout.read ⟨cs, stack⟩ c).bind fun later => layout.readAll later more := rfl
  rw [readAll_append, readAll_of_signFree layout h, List.nil_append, Option.bind_some, hfold, hread,
    Option.bind_some]

/-! ## What the layout puts around a text -/

theorem readPrelude_eq (level : Nat) (prelude : String) :
    layout.readPrelude level (layout.margin level ++ prelude.toList ++ layout.gap) = prelude := by
  unfold readPrelude
  rw [List.append_assoc, List.drop_left]
  have hlength : (prelude.toList ++ layout.gap).length - layout.gap.length =
      prelude.toList.length := by
    rw [List.length_append]
    omega
  show String.ofList _ = _
  rw [hlength, List.take_left, String.ofList_toList]

theorem readDeclaration_eq {d : Declaration} (h : ':' ∉ d.name.toList) (level : Nat) :
    layout.readDeclaration level (layout.margin level ++ layout.declaration d) = d := by
  have hname : ∀ c ∈ d.name.toList, c != ':' := by
    intro c hc
    rw [bne_iff_ne]
    rintro rfl
    exact h hc
  have htake : (layout.declaration d).takeWhile (· != ':') = d.name.toList := by
    unfold declaration
    rw [List.append_assoc, List.takeWhile_append_of_pos hname]
    simp
  have hdrop : (layout.declaration d).dropWhile (· != ':') =
      ':' :: layout.gap ++ d.value.toList := by
    unfold declaration
    rw [List.append_assoc, List.dropWhile_append_of_pos hname]
    simp
  have hlength : (':' :: layout.gap).length = 1 + layout.gap.length := by
    rw [List.length_cons, Nat.add_comm]
  unfold readDeclaration
  simp only [List.drop_left, htake, hdrop]
  rw [← hlength, List.drop_left, String.ofList_toList, String.ofList_toList]

theorem signFree_line {d : Declaration} (h : d.Separable) (level : Nat) :
    SignFree (layout.margin level ++ layout.declaration d) := by
  have hcolon : SignFree (':' :: layout.gap) :=
    List.forall_mem_cons.2 ⟨by decide, signFree_of_blank layout.gap_blank⟩
  exact (signFree_of_blank (layout.margin_blank level)).append ((h.name.append hcolon).append h.value)

theorem colon_mem_line (d : Declaration) (level : Nat) :
    ':' ∈ layout.margin level ++ layout.declaration d := by
  simp [declaration]

theorem colon_not_mem_closing (level : Nat) : ':' ∉ layout.closing level := by
  intro h
  exact absurd (layout.closing_blank level _ h) (by decide)

/-! ## The parts of a block -/

variable (prelude : String) (stack : List Block)

theorem readAll_declarations {ds : List Declaration} (h : ∀ d ∈ ds, d.Separable)
    (own : List Declaration) (children : List Block) (more : List Char) :
    layout.readAll ⟨[], ⟨prelude, own, children⟩ :: stack⟩
        (layout.declarations stack.length ds ++ more) =
      layout.readAll ⟨[], ⟨prelude, own ++ ds, children⟩ :: stack⟩ more := by
  induction ds generalizing own with
  | nil => rw [List.append_nil]; rfl
  | cons d ds ih =>
      obtain ⟨hd, hds⟩ := List.forall_mem_cons.1 h
      have hsign : layout.atSign .semicolon (layout.margin stack.length ++ layout.declaration d)
          (⟨prelude, own, children⟩ :: stack) =
            some (⟨prelude, own ++ [d], children⟩ :: stack) := by
        rw [atSign, readDeclaration_eq layout hd.colon]
        rfl
      have htext : layout.declarations stack.length (d :: ds) ++ more =
          (layout.margin stack.length ++ layout.declaration d)
            ++ ';' :: (layout.declarations stack.length ds ++ more) := by
        simp [declarations]
      rw [htext, readAll_sign layout (layout.signFree_line hd _) rfl hsign, ih hds,
        List.append_assoc, List.singleton_append]

/-- After the text of a block the reader has the block. -/
def Reads (block : Block) : Prop :=
  ∀ (outer : Block) (rest : List Block) (more : List Char),
    layout.readAll ⟨[], outer :: rest⟩ (layout.text rest.length block ++ more) =
      layout.readAll ⟨[], outer.nest block :: rest⟩ more

theorem readAll_children {children : List Block} (h : ∀ child ∈ children, layout.Reads child)
    (own : List Declaration) (before : List Block) (more : List Char) :
    layout.readAll ⟨[], ⟨prelude, own, before⟩ :: stack⟩
        (layout.textAll stack.length children ++ more) =
      layout.readAll ⟨[], ⟨prelude, own, before ++ children⟩ :: stack⟩ more := by
  induction children generalizing before with
  | nil => rw [List.append_nil]; rfl
  | cons child children ih =>
      obtain ⟨hchild, hchildren⟩ := List.forall_mem_cons.1 h
      have hnest : Block.nest ⟨prelude, own, before⟩ child = ⟨prelude, own, before ++ [child]⟩ := rfl
      rw [textAll, List.append_assoc, hchild, hnest, ih hchildren, List.append_assoc,
        List.singleton_append]

theorem readAll_closing (block outer : Block) (level : Nat) (more : List Char) :
    layout.readAll ⟨[], block :: outer :: stack⟩ (layout.closing level ++ '\x7d' :: more) =
      layout.readAll ⟨[], outer.nest block :: stack⟩ more := by
  have hsign : layout.atSign .closing (layout.closing level) (block :: outer :: stack) =
      some (outer.nest block :: stack) := by
    rw [atSign, if_neg (layout.colon_not_mem_closing level)]
  exact readAll_sign layout (signFree_of_blank (layout.closing_blank level)) rfl hsign more

/-- A declaration without its semicolon is read at the closing brace. -/
theorem readAll_last {d : Declaration} (h : d.Separable) (own : List Declaration)
    (children : List Block) (outer : Block) (more : List Char) :
    layout.readAll ⟨[], ⟨prelude, own, children⟩ :: outer :: stack⟩
        (layout.margin (stack.length + 1) ++ layout.declaration d ++ '\x7d' :: more) =
      layout.readAll ⟨[], outer.nest ⟨prelude, own ++ [d], children⟩ :: stack⟩ more := by
  have hsign : layout.atSign .closing
      (layout.margin (stack.length + 1) ++ layout.declaration d)
      (⟨prelude, own, children⟩ :: outer :: stack) =
        some (outer.nest ⟨prelude, own ++ [d], children⟩ :: stack) := by
    rw [atSign, if_pos (layout.colon_mem_line d _), readDeclaration_eq layout h.colon]
    rfl
  exact readAll_sign layout (layout.signFree_line h _) rfl hsign more

/-- What stands between the braces of a block, and the closing brace. -/
theorem readAll_body {ds : List Declaration} {children : List Block}
    (hds : ∀ d ∈ ds, d.Separable) (hchildren : ∀ child ∈ children, layout.Reads child)
    (outer : Block) (level : Nat) (more : List Char) :
    layout.readAll ⟨[], ⟨prelude, [], []⟩ :: outer :: stack⟩
        ((if layout.semicolon || !children.isEmpty then layout.declarations (stack.length + 1) ds
            else (layout.declarations (stack.length + 1) ds).dropLast)
          ++ textAll layout (stack.length + 1) children ++ layout.closing level ++ '\x7d' :: more) =
      layout.readAll ⟨[], outer.nest ⟨prelude, ds, children⟩ :: stack⟩ more := by
  have hdeclarations := layout.readAll_declarations prelude (outer :: stack) hds [] []
  by_cases hended : layout.semicolon || !children.isEmpty
  · -- every declaration has its semicolon, and nothing is pending at the brace
    rw [if_pos hended, List.append_assoc, List.append_assoc, ← List.length_cons (a := outer),
      hdeclarations, readAll_children layout prelude (outer :: stack) hchildren, readAll_closing]
    rfl
  · -- nothing is nested in the block, and the last declaration is pending
    rw [Bool.or_eq_true, not_or, Bool.not_eq_true, Bool.not_eq_true', Bool.not_eq_false] at hended
    obtain ⟨hsemicolon, hempty⟩ := hended
    obtain rfl := List.isEmpty_iff.1 hempty
    have hended : ¬ (layout.semicolon || !([] : List Block).isEmpty) := by
      rw [hsemicolon]
      decide
    rw [if_neg hended, textAll, layout.bare hsemicolon, List.append_nil, List.append_nil]
    rcases List.eq_nil_or_concat ds with rfl | ⟨init, last, rfl⟩
    · have hclosing := layout.readAll_closing stack ⟨prelude, [], []⟩ outer 0 more
      rw [layout.bare hsemicolon] at hclosing
      exact hclosing
    · rw [List.concat_eq_append] at hds ⊢
      obtain ⟨hinit, hlast⟩ := List.forall_mem_append.1 hds
      have htext : (layout.declarations (stack.length + 1) (init ++ [last])).dropLast =
          layout.declarations (stack.length + 1) init
            ++ (layout.margin (stack.length + 1) ++ layout.declaration last) := by
        unfold declarations
        rw [List.flatMap_append, List.flatMap_singleton, ← List.append_assoc, List.dropLast_concat]
      have hread := layout.readAll_declarations prelude (outer :: stack) hinit [] []
      rw [htext, List.append_assoc, ← List.length_cons (a := outer), hread, List.length_cons,
        List.nil_append]
      exact layout.readAll_last prelude stack (hlast last List.mem_cons_self) init [] outer more

end Layout

/-! ## Whole texts -/

/-- **The text of a block gives the block back**, in every layout and wherever it stands. -/
theorem Block.Separable.reads {block : Block} (h : block.Separable) (layout : Layout) :
    layout.Reads block := by
  induction h with
  | @mk prelude ds children hprelude hds _ ih =>
      intro outer rest more
      -- what stands before the opening brace is read as the prelude, and the body as the induction
      -- hypothesis for the children says
      have hpending : SignFree (layout.margin rest.length ++ prelude.toList ++ layout.gap) :=
        ((signFree_of_blank (layout.margin_blank _)).append hprelude).append
          (signFree_of_blank layout.gap_blank)
      have hsign : layout.atSign .opening
          (layout.margin rest.length ++ prelude.toList ++ layout.gap) (outer :: rest) =
            some (⟨prelude, [], []⟩ :: outer :: rest) := by
        rw [Layout.atSign, layout.readPrelude_eq]
      have hbody := layout.readAll_body prelude rest hds ih outer rest.length more
      rw [← hbody, ← layout.readAll_sign (c := '\x7b') hpending rfl hsign]
      simp only [Layout.text, List.append_assoc, List.cons_append, List.nil_append]

theorem decode_render {blocks : List Block} (h : ∀ block ∈ blocks, block.Separable)
    (config : Config) : decode config (render config blocks) = some blocks := by
  have hend : SignFree (lineEnd config) := signFree_of_blank (lineEnd_blank config)
  have hread := (Layout.ofConfig config).readAll_children "" []
    (fun block hblock => (h block hblock).reads (Layout.ofConfig config)) [] [] (lineEnd config)
  rw [List.length_nil, List.nil_append, Layout.readAll_of_signFree _ hend] at hread
  unfold decode
  rw [lineEnd_append_render, hread]

/-- **Rendering loses no structure**: in each style the text of separable blocks gives them back.
So no two lists of them are written alike in a style, and what a style sheet is written as in
different styles are texts of the same blocks. -/
theorem render_decodes {blocks : List Block} (h : ∀ block ∈ blocks, block.Separable) :
    (∀ config, decode config (render config blocks) = some blocks) ∧
      (∀ config others, (∀ block ∈ others, block.Separable) →
        render config others = render config blocks → others = blocks) ∧
      ∀ sheet : Stylesheet, sheet.blocks = blocks → ∀ config,
        decode config ({ sheet with config } : Stylesheet).emit = some blocks := by
  refine ⟨decode_render h, ?_, ?_⟩
  · intro config others hothers hrender
    have hdecode := decode_render hothers config
    rw [hrender, decode_render h config] at hdecode
    exact (Option.some.inj hdecode).symm
  · intro sheet hsheet config
    have hemit : ({ sheet with config } : Stylesheet).emit = render config blocks := by
      rw [← hsheet]
      rfl
    rw [hemit, decode_render h config]

/-- A block with a declaration, a block and an empty block in it, before an empty block. -/
theorem render_decodes_of_nested :
    ∃ blocks : List Block, (∀ block ∈ blocks, block.Separable) ∧
      blocks.map (fun block => (block.declarations.length, block.children.length)) =
        [(1, 2), (0, 0)] ∧
      ∀ config, decode config (render config blocks) = some blocks := by
  let empty : Block := ⟨"@font-face", [], []⟩
  let inner : Block := ⟨".a:hover", [⟨"color", "red"⟩, ⟨"--b", "url(c:d)"⟩], []⟩
  let outer : Block := ⟨"@media (width > 1px)", [⟨"margin", "0"⟩], [inner, empty]⟩
  have hempty : empty.Separable := .mk (by decide) (by decide) (by simp)
  have hinner : inner.Separable := .mk (by decide) (by decide) (by simp)
  have houter : outer.Separable := by
    refine .mk (by decide) (by decide) ?_
    exact List.forall_mem_cons.2 ⟨hinner, List.forall_mem_singleton.2 hempty⟩
  have hblocks : ∀ block ∈ [outer, empty], block.Separable :=
    List.forall_mem_cons.2 ⟨houter, List.forall_mem_singleton.2 hempty⟩
  exact ⟨[outer, empty], hblocks, rfl, (render_decodes hblocks).1⟩

end ScopedCss.Css
