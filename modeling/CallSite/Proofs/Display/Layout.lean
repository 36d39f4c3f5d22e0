import CallSite.Proofs.Text.ReadBack
import CallSite.Tree.Display
import CallSite.Tree.WellFormed

/-! The text of a displayed tree, part by part. Each line is taken together with the newline in
front of it, so the text of a tree is made of its opening line, the texts of its children one level
deeper, with a comma before each but the first, and its closing line. -/

namespace CallSite

namespace Line
variable {ls : List Line}

/-- The text of lines, each behind a newline. -/
def below (d : Int) (ls : List Line) : List Char :=
  ls.flatMap fun l => '\n' :: (indented d l).toList

/-- The indentation of a line of depth zero. -/
def indentation (d : Int) : List Char := List.replicate (4 * d.toNat) ' '

theorem below_cons (d : Int) (l : Line) (ls : List Line) :
    below d (l :: ls) = '\n' :: ((indented d l).toList ++ below d ls) := rfl

theorem below_append (d : Int) (ls ms : List Line) :
    below d (ls ++ ms) = below d ls ++ below d ms := List.flatMap_append

theorem below_zero (d : Int) (text : String) :
    below d [⟨0, text⟩] = '\n' :: (indentation d ++ text.toList) := by
  simp [below, indented, indentation]

theorem below_nest (d : Int) (ls : List Line) : below d (ls.map nest) = below (d + 1) ls := by
  have deeper : ∀ l : Line, indented d l.nest = indented (d + 1) l := by
    intro l
    have depth : d + ((l.depth + 1 : Nat) : Int) = d + 1 + l.depth := by omega
    rw [indented, indented, depth_nest, text_nest, depth]
  simp [below, List.flatMap_map, deeper]

theorem below_withComma (d : Int) (given : ls ≠ []) :
    below d (withComma ls) = below d ls ++ [','] := by
  induction ls with
  | nil => exact absurd rfl given
  | cons l ls ih =>
    cases ls with
    | nil => simp [withComma, below, indented]
    | cons m ls =>
      rw [withComma, below_cons, ih (by simp), below_cons d l]
      · simp
      · simp

theorem separated_cons (ls ms : List Line) (rest : List (List Line)) :
    separated (ls :: ms :: rest) = withComma ls ++ separated (ms :: rest) := rfl

theorem below_separated (d : Int) {parts : List (List Line)} (given : ∀ p ∈ ls :: parts, p ≠ []) :
    below d (separated (ls :: parts)) = below d ls ++ parts.flatMap fun p => ',' :: below d p := by
  induction parts generalizing ls with
  | nil => simp [separated]
  | cons p parts ih =>
    have rest := ih fun q mem => given q (List.mem_cons_of_mem _ mem)
    rw [separated_cons, below_append, below_withComma d (given ls (by simp)), rest]
    simp

theorem layout_ne_nil (kind : String) (fields : List String) (parts : List (List Line)) :
    layout kind fields parts ≠ [] := by
  unfold layout
  split <;> simp

/-- The opening line up to its last field. -/
def opening (kind : String) (fields : List String) : List Char :=
  kind.toList ++ '(' :: (", ".intercalate fields).toList

/-- What follows the fields: a bracket, or the texts of the parts and a bracket on its own line. A
comma separates fields from parts. -/
def closing (d : Int) (fields : List String) : List (List Char) → List Char
  | [] => [')']
  | part :: parts =>
    (if fields.isEmpty then [] else [',']) ++
      (part ++ (parts.flatMap (',' :: ·) ++ '\n' :: (indentation d ++ [')'])))

theorem below_layout (d : Int) (kind : String) (fields : List String) {parts : List (List Line)}
    (given : ∀ p ∈ parts, p ≠ []) :
    below d (layout kind fields parts) = '\n' :: (indentation d ++
      (opening kind fields ++ closing d fields (parts.map (below (d + 1))))) := by
  cases parts with
  | nil => simp [layout, below_zero, opening, closing, Text.bracketed]
  | cons p parts =>
    have head := below_zero d
      (kind ++ Text.bracketed "(" fields (if fields.isEmpty then "" else ","))
    have foot := below_zero d ")"
    have between := below_separated (d + 1) given
    rw [layout]
    · rw [← List.singleton_append, below_append, below_append, head, foot, below_nest, between]
      cases fields <;> simp [opening, closing, Text.bracketed, List.flatMap_map]
    · simp

end Line

namespace Node
variable {t : Node}

/-- The plain fields of a tree whose positions hold no stray values. -/
def fields : Node → List String
  | literal v => [field "value" (toString v)]
  | binary op .. => [field "operator" ("'" ++ op.symbol ++ "'")]
  | reference line x | call line x _ | declare line x _ | assign line x _ => place line x
  | function line f ps _ => place line f ++ paramsField ps
  | _ => []

/-- The nodes among the parts of a tree. -/
def children (t : Node) : List Node := t.parts.filter isNode

theorem isNode_of_isExpression (h : t.isExpression = true) : t.isNode = true :=
  isNode_of_isStatement (isStatement_of_isExpression h)

theorem isNode_of_isBlock (h : t.isBlock = true) : t.isNode = true := by
  cases t with
  | block => rfl
  | _ => cases h

/-- What fits at a position is a node, unless the position is left out. -/
theorem nothing_or_isNode (h : t.fits = true) {p : Node} (mem : p ∈ t.parts) :
    p = nothing ∨ p.isNode = true := by
  cases t with
  | nothing | integer | text | literal | reference => exact absurd mem List.not_mem_nil
  | call line f args => exact .inr (isNode_of_isExpression (List.all_eq_true.1 h p mem))
  | block ss => exact .inr (isNode_of_isStatement (List.all_eq_true.1 h p mem))
  | declare line x e =>
    obtain rfl := List.mem_singleton.1 mem
    simp only [fits, isOptional, Bool.or_eq_true, decide_eq_true_eq] at h
    exact h.imp_right isNode_of_isExpression
  | branch c y n =>
    simp only [fits, isOptional, Bool.and_eq_true, Bool.or_eq_true, decide_eq_true_eq] at h
    simp only [parts, List.mem_cons, List.not_mem_nil, or_false] at mem
    rcases mem with rfl | rfl | rfl
    · exact .inr (isNode_of_isExpression h.1.1)
    · exact .inr (isNode_of_isBlock h.1.2)
    · exact h.2.imp_right isNode_of_isBlock
  | binary op l r =>
    simp only [fits, Bool.and_eq_true] at h
    simp only [parts, List.mem_cons, List.not_mem_nil, or_false] at mem
    rcases mem with rfl | rfl
    · exact .inr (isNode_of_isExpression h.1)
    · exact .inr (isNode_of_isExpression h.2)
  | loop c b =>
    simp only [fits, Bool.and_eq_true] at h
    simp only [parts, List.mem_cons, List.not_mem_nil, or_false] at mem
    rcases mem with rfl | rfl
    · exact .inr (isNode_of_isExpression h.1)
    · exact .inr (isNode_of_isBlock h.2)
  | assign line x e =>
    obtain rfl := List.mem_singleton.1 mem
    exact .inr (isNode_of_isExpression h)
  | exit e =>
    obtain rfl := List.mem_singleton.1 mem
    exact .inr (isNode_of_isExpression h)
  | function line f ps b =>
    obtain rfl := List.mem_singleton.1 mem
    exact .inr (isNode_of_isBlock h)
  | program b =>
    obtain rfl := List.mem_singleton.1 mem
    exact .inr (isNode_of_isBlock h)

/-- The parts that are laid out below a tree. Arguments among which there is a stray value are none. -/
def nested : Node → List Node
  | call _ _ args => if args.all isNode then args else []
  | block ss => ss
  | t => t.children

/-- All nodes among the parts of a tree that fits together are laid out below it. -/
theorem nested_of_fits (h : t.fits = true) : t.nested = t.children := by
  cases t with
  | call line f args =>
    have nodes : ∀ p ∈ args, p.isNode = true := fun p mem =>
      isNode_of_isExpression (List.all_eq_true.1 h p mem)
    rw [nested, if_pos (by simpa using nodes), children, parts, List.filter_eq_self.2 nodes]
  | block ss =>
    have nodes : ∀ p ∈ ss, p.isNode = true := fun p mem =>
      isNode_of_isStatement (List.all_eq_true.1 h p mem)
    rw [nested, children, parts, List.filter_eq_self.2 nodes]
  | _ => rfl

theorem sizeOf_lt_of_mem_nested {c : Node} (h : c ∈ t.nested) : sizeOf c < sizeOf t := by
  have part : c ∈ t.parts := by
    cases t with
    | call line f args =>
      rw [nested] at h
      split at h
      · exact h
      · exact absurd h List.not_mem_nil
    | block => exact h
    | _ => exact (List.mem_filter.1 h).1
  exact sizeOf_lt_of_mem_parts part

variable [Memory]

theorem allLines_eq_map (ts : List Node) : allLines ts = ts.map lines := by
  induction ts with
  | nil => rfl
  | cons t ts ih => simp [allLines, ih]

/-- A position that holds a node, or nothing, gives no plain field. -/
theorem stray_eq_nil (name : String) (h : t = nothing ∨ t.isNode = true) : stray name t = [] := by
  rcases h with rfl | node
  · rfl
  · cases t with
    | nothing | integer | text => cases node
    | _ => rfl

theorem part_isNode (t : Node) : Line.part t.isNode t.lines = ([t].filter isNode).map lines := by
  cases h : t.isNode <;> simp [Line.part, h]

/-- The plain fields of a tree, those of stray values included. -/
def plainFields : Node → List String
  | literal v => [field "value" (toString v)]
  | binary op l r =>
    field "operator" ("'" ++ op.symbol ++ "'") :: stray "left" l ++ stray "right" r
  | reference line x => place line x
  | call line f args => place line f ++ strayArgs args
  | declare line x e | assign line x e => place line x ++ stray "expression" e
  | branch c y n => stray "condition" c ++ stray "if_block" y ++ stray "else_block" n
  | loop c b => stray "condition" c ++ stray "body" b
  | exit e => stray "expression" e
  | function line f ps b => place line f ++ paramsField ps ++ stray "body" b
  | program b => stray "block" b
  | _ => []

/-- A node is laid out from its kind, its plain fields and the lines of what is below it. -/
theorem lines_of_isNode (node : t.isNode = true) :
    t.lines = Line.layout t.kind t.plainFields (t.nested.map lines) := by
  cases t with
  | nothing | integer | text => cases node
  | literal | reference => rfl
  | call line f args =>
    rw [lines, nested, allLines_eq_map]
    split <;> rfl
  | block ss =>
    rw [lines, allLines_eq_map]
    rfl
  | binary op l r | loop l r =>
    rw [lines, part_isNode, part_isNode, ← List.map_append, ← List.filter_append]
    rfl
  | branch c y n =>
    rw [lines, part_isNode, part_isNode, part_isNode, ← List.map_append, ← List.filter_append,
      ← List.map_append, ← List.filter_append]
    rfl
  | declare line x e | assign line x e | exit e | function line f ps e | program e =>
    rw [lines, part_isNode]
    rfl

/-- A tree that fits together has no plain fields but its own. -/
theorem plainFields_of_fits (h : t.fits = true) : t.plainFields = t.fields := by
  have blank (name : String) {p : Node} (mem : p ∈ t.parts) : stray name p = [] :=
    stray_eq_nil name (nothing_or_isNode h mem)
  cases t with
  | nothing | integer | text | literal | reference | block => rfl
  | call line f args =>
    have nodes : ∀ p ∈ args, p.isNode = true := fun p mem =>
      isNode_of_isExpression (List.all_eq_true.1 h p mem)
    rw [plainFields, strayArgs, if_pos (by simpa using nodes), List.append_nil]
    rfl
  | binary op l r =>
    rw [plainFields, blank "left" (by simp [parts]), blank "right" (by simp [parts])]
    rfl
  | branch c y n =>
    rw [plainFields, blank "condition" (by simp [parts]), blank "if_block" (by simp [parts]),
      blank "else_block" (by simp [parts])]
    rfl
  | loop c b =>
    rw [plainFields, blank "condition" (by simp [parts]), blank "body" (by simp [parts])]
    rfl
  | declare line x e | assign line x e =>
    rw [plainFields, blank "expression" (by simp [parts]), List.append_nil]
    rfl
  | exit e =>
    rw [plainFields, blank "expression" (by simp [parts])]
    rfl
  | function line f ps b =>
    rw [plainFields, blank "body" (by simp [parts]), List.append_nil]
    rfl
  | program b =>
    rw [plainFields, blank "block" (by simp [parts])]
    rfl

/-- The text of a tree behind a newline. -/
def shown (d : Int) (t : Node) : List Char := Line.below d t.lines

theorem lines_ne_nil (t : Node) : t.lines ≠ [] := by
  cases t <;> simp [lines, Line.layout_ne_nil]

theorem newline_cons_display (d : Int) (t : Node) :
    '\n' :: (t.display d).toList = t.shown d := by
  rw [display, shown]
  cases h : t.lines with
  | nil => exact absurd h t.lines_ne_nil
  | cons l ls =>
    rw [List.map_cons, Text.toList_intercalate_cons, Text.behind, List.flatMap_map]
    rfl

theorem shown_of_isNode (d : Int) (node : t.isNode = true) :
    t.shown d = '\n' :: (Line.indentation d ++ (Line.opening t.kind t.plainFields ++
      Line.closing d t.plainFields (t.nested.map (shown (d + 1))))) := by
  have given : ∀ p ∈ t.nested.map lines, p ≠ [] := by
    simp [lines_ne_nil]
  rw [shown, lines_of_isNode node, Line.below_layout d _ _ given, List.map_map]
  rfl

/-- A tree that fits together has no plain fields but its own, and its children are below it. -/
theorem shown_eq (d : Int) (h : t.fits = true) (node : t.isNode = true) :
    t.shown d = '\n' :: (Line.indentation d ++ (Line.opening t.kind t.fields ++
      Line.closing d t.fields (t.children.map (shown (d + 1))))) := by
  rw [shown_of_isNode d node, plainFields_of_fits h, nested_of_fits h]

end Node
end CallSite
