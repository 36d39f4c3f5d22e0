import CallSite.Proofs.Display.Layout
import CallSite.Proofs.Text.PrintedLines

/-! Displays as blocks of lines. No plain field breaks a line: quoted names are escaped, and what
stands in a group of arguments is on one line as a whole. So a displayed tree has the lines of its
layout, and to display it under more indentation is to move each of its lines to the right. -/

namespace CallSite

namespace Text
variable {parts : List String}

theorem newline_not_mem_intercalate (sep : String) (between : '\n' ∉ sep.toList)
    (each : ∀ p ∈ parts, '\n' ∉ p.toList) : '\n' ∉ (sep.intercalate parts).toList := by
  cases parts with
  | nil => simp
  | cons p parts =>
    have rest : '\n' ∉ behind sep parts := by
      intro mem
      obtain ⟨q, given, inside⟩ := List.mem_flatMap.1 mem
      exact (List.mem_append.1 inside).elim between (each q (List.mem_cons_of_mem _ given))
    rw [toList_intercalate_cons]
    exact fun mem => (List.mem_append.1 mem).elim (each p List.mem_cons_self) rest

theorem newline_not_mem_bracketed {opening closing : String} (before : '\n' ∉ opening.toList)
    (after : '\n' ∉ closing.toList) (each : ∀ p ∈ parts, '\n' ∉ p.toList) :
    '\n' ∉ (bracketed opening parts closing).toList := by
  have inner := newline_not_mem_intercalate ", " (by simp) each
  simp only [bracketed, String.toList_append, List.mem_append, not_or]
  exact ⟨⟨before, inner⟩, after⟩

theorem newline_not_mem_group (each : ∀ p ∈ parts, '\n' ∉ p.toList) :
    '\n' ∉ (group parts).toList := by
  unfold group
  split
  · next part => simpa using each part List.mem_cons_self
  · exact newline_not_mem_bracketed (by simp) (by simp) each

@[simp] theorem newline_not_mem_quote (s : String) : '\n' ∉ (quote s).toList := by
  rw [toList_quote]
  exact newline_not_mem_quoteChars s.toList

@[simp] theorem newline_not_mem_repr (v : Int) : '\n' ∉ v.repr.toList :=
  not_mem_toString (by decide)

@[simp] theorem newline_not_mem_hexNumeral (n : Nat) : '\n' ∉ (hexNumeral n).toList := by
  simp [hexNumeral, newline_not_mem_hexDigits]

/-- A text with spaces in front of each of its lines. -/
def shifted (n : Nat) (s : String) : String :=
  String.ofList (['\n'].intercalate ((s.toList.splitOn '\n').map (List.replicate n ' ' ++ ·)))

end Text

open Text

namespace Line
variable {ls : List Line} {parts : List (List Line)} {kind : String} {fields : List String}

/-- Whether the text of every line stays on that line. -/
def Unbroken (ls : List Line) : Prop := ∀ l ∈ ls, '\n' ∉ l.text.toList

theorem unbroken_withComma (h : Unbroken ls) : Unbroken (withComma ls) := by
  induction ls with
  | nil => exact h
  | cons l ls ih =>
    have ⟨first, others⟩ := List.forall_mem_cons.1 h
    cases ls with
    | nil => simpa [withComma, Unbroken] using first
    | cons m ls => exact List.forall_mem_cons.2 ⟨first, ih others⟩

theorem unbroken_separated (h : ∀ p ∈ parts, Unbroken p) : Unbroken (separated parts) := by
  induction parts with
  | nil => exact fun _ mem => absurd mem List.not_mem_nil
  | cons p parts ih =>
    have ⟨first, others⟩ := List.forall_mem_cons.1 h
    cases parts with
    | nil => exact first
    | cons q parts => exact List.forall_mem_append.2 ⟨unbroken_withComma first, ih others⟩

/-- A layout breaks no line if neither its kind nor a field of it does, and the parts break none. -/
theorem unbroken_layout (named : '\n' ∉ kind.toList) (plain : ∀ f ∈ fields, '\n' ∉ f.toList)
    (below : ∀ p ∈ parts, Unbroken p) : Unbroken (layout kind fields parts) := by
  have own {stop : String} (stops : '\n' ∉ stop.toList) :
      '\n' ∉ (kind ++ bracketed "(" fields stop).toList := by
    have rest : '\n' ∉ (bracketed "(" fields stop).toList :=
      newline_not_mem_bracketed (by simp) stops plain
    simp [named, rest]
  unfold layout
  split
  · exact List.forall_mem_singleton.2 (own (by simp))
  · have comma : '\n' ∉ (if fields.isEmpty then "" else ",").toList := by
      split <;> simp
    have inner : Unbroken ((separated parts).map nest) :=
      List.forall_mem_map.2 (unbroken_separated below)
    have last : Unbroken [⟨0, ")"⟩] := List.forall_mem_singleton.2 (by simp)
    exact List.forall_mem_append.2 ⟨List.forall_mem_cons.2 ⟨own comma, inner⟩, last⟩

end Line

namespace BinaryOperator

/-- An operator is shown on one line, wherever its function lies. -/
theorem newline_not_mem_entry [Memory] (op : BinaryOperator) : '\n' ∉ op.entry.toList := by
  have tag : '\n' ∉ op.tag.toList := by cases op <;> simp [BinaryOperator.tag]
  have name : '\n' ∉ op.functionName.toList := by cases op <;> simp [functionName]
  have function : '\n' ∉ op.function.toList := by
    unfold BinaryOperator.function
    simp [name]
  have members := newline_not_mem_group (List.forall_mem_cons.2
    ⟨newline_not_mem_quote op.symbol, List.forall_mem_singleton.2 function⟩)
  unfold entry
  simp [tag, members]

end BinaryOperator

namespace Node
variable {t : Node} {name value kind : String} {fields : List String}

@[simp] theorem newline_not_mem_field_iff :
    '\n' ∉ (field name value).toList ↔ '\n' ∉ name.toList ∧ '\n' ∉ value.toList := by
  simp [field]

theorem newline_not_mem_record (named : '\n' ∉ kind.toList)
    (plain : ∀ f ∈ fields, '\n' ∉ f.toList) : '\n' ∉ (record kind fields).toList := by
  have rest : '\n' ∉ (bracketed "(" fields ")").toList :=
    newline_not_mem_bracketed (by simp) (by simp) plain
  simp [record, named, rest]

theorem newline_not_mem_kind (t : Node) : '\n' ∉ t.kind.toList := by
  cases t <;> simp [Node.kind]

theorem newline_not_mem_place (line : Int) (x : String) : ∀ f ∈ place line x, '\n' ∉ f.toList := by
  simp [place]

@[simp] theorem newline_not_mem_names (xs : List String) : '\n' ∉ (names xs).toList :=
  newline_not_mem_group (List.forall_mem_map.2 fun x _ => newline_not_mem_quote x)

theorem newline_not_mem_paramsField (ps : List String) :
    ∀ f ∈ paramsField ps, '\n' ∉ f.toList := by
  unfold paramsField
  split <;> simp

section
variable [Memory]

mutual

/-- A tree that stands in a group of arguments is on one line, with everything in it. -/
theorem newline_not_mem_inspect : (t : Node) → '\n' ∉ t.inspect.toList
  | literal v => newline_not_mem_record (by simp) (by simp)
  | reference line x => newline_not_mem_record (by simp) (newline_not_mem_place line x)
  | binary op l r => newline_not_mem_record (by simp)
      (by simp [op.newline_not_mem_entry, newline_not_mem_inspect l, newline_not_mem_inspect r])
  | call line f args => newline_not_mem_record (by simp) (List.forall_mem_append.2
      ⟨newline_not_mem_place line f,
        by simp [newline_not_mem_group (newline_not_mem_inspectAll args)]⟩)
  | block ss => newline_not_mem_record (by simp)
      (by simp [newline_not_mem_group (newline_not_mem_inspectAll ss)])
  | declare line x e => newline_not_mem_record (by simp) (List.forall_mem_append.2
      ⟨newline_not_mem_place line x, by simp [newline_not_mem_inspect e]⟩)
  | assign line x e => newline_not_mem_record (by simp) (List.forall_mem_append.2
      ⟨newline_not_mem_place line x, by simp [newline_not_mem_inspect e]⟩)
  | branch c y n => newline_not_mem_record (by simp)
      (by simp [newline_not_mem_inspect c, newline_not_mem_inspect y, newline_not_mem_inspect n])
  | loop c b => newline_not_mem_record (by simp)
      (by simp [newline_not_mem_inspect c, newline_not_mem_inspect b])
  | exit e => newline_not_mem_record (by simp) (by simp [newline_not_mem_inspect e])
  | function line f ps b => newline_not_mem_record (by simp) (List.forall_mem_append.2
      ⟨newline_not_mem_place line f, by simp [newline_not_mem_inspect b]⟩)
  | program b => newline_not_mem_record (by simp) (by simp [newline_not_mem_inspect b])
  | nothing => by simp [inspect]
  | integer v => newline_not_mem_repr v
  | text s => newline_not_mem_quote s

theorem newline_not_mem_inspectAll : (ts : List Node) → ∀ s ∈ inspectAll ts, '\n' ∉ s.toList
  | [] => fun _ mem => absurd mem List.not_mem_nil
  | t :: ts => List.forall_mem_cons.2 ⟨newline_not_mem_inspect t, newline_not_mem_inspectAll ts⟩

end

theorem newline_not_mem_stray (name : String) (named : '\n' ∉ name.toList) (t : Node) :
    ∀ f ∈ stray name t, '\n' ∉ f.toList := by
  cases t with
  | integer v => simpa [stray, named] using newline_not_mem_inspect (integer v)
  | text s => simpa [stray, named] using newline_not_mem_inspect (text s)
  | _ => exact fun _ mem => absurd mem List.not_mem_nil

theorem newline_not_mem_strayArgs (args : List Node) : ∀ f ∈ strayArgs args, '\n' ∉ f.toList := by
  unfold strayArgs
  split
  · simp
  · simp [newline_not_mem_group (newline_not_mem_inspectAll args)]

/-- No plain field breaks a line, whatever names and stray values the tree holds. -/
theorem newline_not_mem_plainFields (t : Node) : ∀ f ∈ t.plainFields, '\n' ∉ f.toList := by
  have free := newline_not_mem_stray
  cases t with
  | nothing | integer | text | block => exact fun _ mem => absurd mem List.not_mem_nil
  | literal v => simp [plainFields]
  | binary op l r =>
    have symbol : '\n' ∉ op.symbol.toList := by cases op <;> simp [BinaryOperator.symbol]
    have own : '\n' ∉ (field "operator" ("'" ++ op.symbol ++ "'")).toList := by simp [symbol]
    exact List.forall_mem_append.2 ⟨List.forall_mem_cons.2 ⟨own, free "left" (by simp) l⟩,
      free "right" (by simp) r⟩
  | reference line x => exact newline_not_mem_place line x
  | call line f args =>
    exact List.forall_mem_append.2 ⟨newline_not_mem_place line f, newline_not_mem_strayArgs args⟩
  | declare line x e | assign line x e =>
    exact List.forall_mem_append.2 ⟨newline_not_mem_place line x, free "expression" (by simp) e⟩
  | branch c y n =>
    exact List.forall_mem_append.2 ⟨List.forall_mem_append.2 ⟨free "condition" (by simp) c,
      free "if_block" (by simp) y⟩, free "else_block" (by simp) n⟩
  | loop c b =>
    exact List.forall_mem_append.2 ⟨free "condition" (by simp) c, free "body" (by simp) b⟩
  | exit e => exact free "expression" (by simp) e
  | function line f ps b =>
    exact List.forall_mem_append.2 ⟨List.forall_mem_append.2 ⟨newline_not_mem_place line f,
      newline_not_mem_paramsField ps⟩, free "body" (by simp) b⟩
  | program b => exact free "block" (by simp) b

theorem unbroken_lines (t : Node) : Line.Unbroken t.lines := by
  -- The induction is on the size of the tree: what is laid out below it breaks no line.
  cases node : t.isNode with
  | true =>
    rw [lines_of_isNode node]
    refine Line.unbroken_layout (newline_not_mem_kind t) (newline_not_mem_plainFields t) ?_
    intro p mem
    obtain ⟨c, inside, rfl⟩ := List.mem_map.1 mem
    have smaller := sizeOf_lt_of_mem_nested inside
    exact unbroken_lines c
  | false =>
    have single : t.lines = [⟨0, t.inspect⟩] := by
      cases t with
      | nothing | integer | text => rfl
      | _ => cases node
    rw [single]
    exact List.forall_mem_singleton.2 (newline_not_mem_inspect t)
termination_by sizeOf t

theorem toList_display (t : Node) (d : Int) :
    (t.display d).toList = ['\n'].intercalate (t.lines.map fun l => (Line.indented d l).toList) := by
  rw [display, String.toList_intercalate, List.map_map]
  rfl

/-- Cut at its newlines, the text of a tree is the lines of its layout. -/
theorem splitOn_display (t : Node) (d : Int) :
    (t.display d).toList.splitOn '\n' = t.lines.map fun l => (Line.indented d l).toList := by
  have free : ∀ cs ∈ t.lines.map fun l => (Line.indented d l).toList, '\n' ∉ cs := by
    intro cs mem
    obtain ⟨l, given, rfl⟩ := List.mem_map.1 mem
    simp [Line.indented, unbroken_lines t l given]
  rw [toList_display, List.splitOn_intercalate '\n' free (by simp [lines_ne_nil])]

/-- A tree is displayed under more indentation by moving each of its lines to the right. -/
theorem display_add (t : Node) {d : Int} (h : 0 ≤ d) (k : Nat) :
    t.display (d + k) = shifted (4 * k) (t.display d) := by
  have moved : ∀ l ∈ t.lines, (Line.indented (d + k) l).toList =
      List.replicate (4 * k) ' ' ++ (Line.indented d l).toList := by
    intro l _
    have spaces : 4 * (d + k + l.depth).toNat = 4 * k + 4 * (d + l.depth).toNat := by omega
    simp only [Line.indented, String.toList_append, String.toList_ofList, spaces,
      List.replicate_add, List.append_assoc]
  rw [← String.toList_inj, shifted, String.toList_ofList, splitOn_display, toList_display,
    List.map_map, List.map_congr_left moved]
  rfl

/-- The text of a node begins with its kind and its plain fields. What is below it follows, each
part behind a newline and one level deeper. -/
theorem toList_display_of_isNode (node : t.isNode = true) (d : Int) :
    (t.display d).toList = Line.indentation d ++ (Line.opening t.kind t.plainFields ++
      Line.closing d t.plainFields (t.nested.map fun c => '\n' :: (c.display (d + 1)).toList)) := by
  have text := newline_cons_display d t
  rw [shown_of_isNode d node] at text
  simp only [newline_cons_display]
  exact (List.cons.inj text).2

/-- A node is displayed under `k` levels of indentation by putting four spaces for each level in
front of every line of its text. No plain field, which all stand behind the kind, breaks a line,
whatever names and stray values the tree holds. -/
theorem display_eq_shifted (node : t.isNode = true) (k : Nat) :
    t.display k = shifted (4 * k) (t.display 0) ∧
      (∀ f ∈ t.plainFields, '\n' ∉ f.toList) ∧
      (t.display k).toList = Line.indentation k ++ (Line.opening t.kind t.plainFields ++
        Line.closing k t.plainFields
          (t.nested.map fun c => '\n' :: (c.display (k + 1)).toList)) := by
  have moved := display_add t le_rfl k
  rw [zero_add] at moved
  exact ⟨moved, newline_not_mem_plainFields t, toList_display_of_isNode node k⟩

end

/-- Names and stray texts with newlines, at positions of their own and in a group of arguments. -/
theorem display_eq_shifted_escaped :
    let mixed : List Node := [.binary .div (.reference 3 "x\ny") .nothing, .text "\n"]
    let t : Node := .branch (.text "a\nb") (.block [.call 2 "f\n" mixed]) .nothing
    let condition := field "condition" (quote "a\nb")
    t.isNode = true ∧ condition ∈ t.plainFields ∧
      t.display (2 : Nat) = shifted (4 * 2) (t.display 0) ∧ '\n' ∉ condition.toList := by
  intro mixed t condition
  have node : t.isNode = true := rfl
  have given : condition ∈ t.plainFields := List.mem_singleton_self condition
  obtain ⟨moved, plain, -⟩ := display_eq_shifted node 2
  exact ⟨node, given, moved, plain condition given⟩

example : (branch (text "a\nb") (block []) nothing).display 1 =
    "    If(condition='a\\nb',\n        Block()\n    )" := by decide

end Node
end CallSite
