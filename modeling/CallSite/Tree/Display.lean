import CallSite.Text.Quoted
import CallSite.Tree.Node

/-! Readable text of trees. A tree is laid out as lines that carry their own depth: the opening line with the
plain fields, the parts one level deeper, a closing line. Plain fields come first and in order, parts that are
left out are skipped, and a stray value counts as a plain field. Indentation is added when lines are joined.

A group of arguments that holds a stray value is one plain field with every tree in it on one line. Such a line
shows an operator together with its function's place in memory, which no tree determines. -/

namespace CallSite

/-- The ambient memory, with the address of each operator's function. -/
class Memory where
  address : BinaryOperator → Nat

/-- Where nothing is known of the memory, every function is taken to lie at zero. -/
instance : Memory := ⟨fun _ => 0⟩

namespace BinaryOperator

/-- The name of an operator's function. Only quotient and remainder have functions with names of their own. -/
def functionName : BinaryOperator → String
  | div => "truncating_div"
  | mod => "truncating_mod"
  | _ => "BinaryOperator.<lambda>"

/-- An operator's function, by its name and its address. -/
def function [Memory] (op : BinaryOperator) : String :=
  "<function " ++ op.functionName ++ " at " ++ Text.hexNumeral (Memory.address op) ++ ">"

/-- An operator as a group shows it: its entry in the reference table, with spelling and function. -/
def entry [Memory] (op : BinaryOperator) : String :=
  "<BinaryOperator." ++ op.tag ++ ": " ++ Text.group [Text.quote op.symbol, op.function] ++ ">"

end BinaryOperator

/-- A line of text and the number of levels by which it is indented. -/
structure Line where
  depth : Nat
  text : String
  deriving DecidableEq, Repr

namespace Line

def nest (l : Line) : Line := { l with depth := l.depth + 1 }

@[simp] theorem depth_nest (l : Line) : l.nest.depth = l.depth + 1 := rfl
@[simp] theorem text_nest (l : Line) : l.nest.text = l.text := rfl

/-- The lines with a comma after the last one. -/
def withComma : List Line → List Line
  | [] => []
  | [l] => [{ l with text := l.text ++ "," }]
  | l :: ls => l :: withComma ls

/-- The lines of several parts, with a comma after every part but the last. -/
def separated : List (List Line) → List Line
  | [] => []
  | [ls] => ls
  | ls :: rest => withComma ls ++ separated rest

/-- The lines of a single part, if there is one. -/
def part (present : Bool) (ls : List Line) : List (List Line) := if present then [ls] else []

/-- The layout of a tree from its kind, its plain fields and the lines of its parts. -/
def layout (kind : String) (fields : List String) (parts : List (List Line)) : List Line :=
  match parts with
  | [] => [⟨0, kind ++ Text.bracketed "(" fields ")"⟩]
  | _ =>
    let comma := if fields.isEmpty then "" else ","
    ⟨0, kind ++ Text.bracketed "(" fields comma⟩ :: (separated parts).map nest ++ [⟨0, ")"⟩]

/-- A line behind its indentation, four spaces a level from `indents` on. Below zero there is none. -/
def indented (indents : Int) (l : Line) : String :=
  String.ofList (List.replicate (4 * (indents + l.depth).toNat) ' ') ++ l.text

end Line

namespace Node

/-- A plain field. -/
def field (name value : String) : String := name ++ "=" ++ value

/-- A record written on one line. -/
def record (kind : String) (fields : List String) : String := kind ++ Text.bracketed "(" fields ")"

/-- The plain fields that say where a named construct stands. -/
def place (line : Int) (name : String) : List String :=
  [field "line" (toString line), field "name" (Text.quote name)]

/-- A group of names. -/
def names (xs : List String) : String := Text.group (xs.map Text.quote)

variable [Memory]

mutual

/-- A tree on one line with all its fields, as it stands in a group that also holds stray values. -/
def inspect : Node → String
  | literal v => record "Literal" [field "value" (toString v)]
  | binary op l r =>
    record "BinaryOp" [field "operator" op.entry, field "left" l.inspect, field "right" r.inspect]
  | reference line x => record "VariableRef" (place line x)
  | call line f args =>
    record "FunctionCall" (place line f ++ [field "args" (Text.group (inspectAll args))])
  | block ss => record "Block" [field "statements" (Text.group (inspectAll ss))]
  | declare line x e => record "VariableDeclaration" (place line x ++ [field "expression" e.inspect])
  | assign line x e => record "Assignment" (place line x ++ [field "expression" e.inspect])
  | branch c y n =>
    record "If" [field "condition" c.inspect, field "if_block" y.inspect, field "else_block" n.inspect]
  | loop c b => record "While" [field "condition" c.inspect, field "body" b.inspect]
  | exit e => record "Return" [field "expression" e.inspect]
  | function line f ps b =>
    record "FunctionDecl" (place line f ++ [field "params" (names ps), field "body" b.inspect])
  | program b => record "Program" [field "block" b.inspect]
  | nothing => "None"
  | integer v => toString v
  | text s => Text.quote s

def inspectAll : List Node → List String
  | [] => []
  | t :: ts => t.inspect :: inspectAll ts

end

/-- The plain field of a position that holds a stray value other than nothing. -/
def stray (name : String) : Node → List String
  | integer v => [field name (integer v).inspect]
  | text s => [field name (text s).inspect]
  | _ => []

/-- The plain field of a group of arguments, present only if one of them is no node. -/
def strayArgs (args : List Node) : List String :=
  if args.all isNode then [] else [field "args" (Text.group (inspectAll args))]

/-- The plain field of a function's parameters, absent if there are none. -/
def paramsField (ps : List String) : List String :=
  if ps.isEmpty then [] else [field "params" (names ps)]

mutual

/-- The lines of a tree, at their depths below it. -/
def lines : Node → List Line
  | literal v => Line.layout "Literal" [field "value" (toString v)] []
  | binary op l r =>
    Line.layout "BinaryOp" (field "operator" ("'" ++ op.symbol ++ "'") :: stray "left" l ++ stray "right" r)
      (Line.part l.isNode l.lines ++ Line.part r.isNode r.lines)
  | reference line x => Line.layout "VariableRef" (place line x) []
  | call line f args =>
    Line.layout "FunctionCall" (place line f ++ strayArgs args)
      (if args.all isNode then allLines args else [])
  | block ss => Line.layout "Block" [] (allLines ss)
  | declare line x e =>
    Line.layout "VariableDeclaration" (place line x ++ stray "expression" e) (Line.part e.isNode e.lines)
  | assign line x e =>
    Line.layout "Assignment" (place line x ++ stray "expression" e) (Line.part e.isNode e.lines)
  | branch c y n =>
    Line.layout "If" (stray "condition" c ++ stray "if_block" y ++ stray "else_block" n)
      (Line.part c.isNode c.lines ++ Line.part y.isNode y.lines ++ Line.part n.isNode n.lines)
  | loop c b =>
    Line.layout "While" (stray "condition" c ++ stray "body" b)
      (Line.part c.isNode c.lines ++ Line.part b.isNode b.lines)
  | exit e => Line.layout "Return" (stray "expression" e) (Line.part e.isNode e.lines)
  | function line f ps b =>
    Line.layout "FunctionDecl" (place line f ++ paramsField ps ++ stray "body" b)
      (Line.part b.isNode b.lines)
  | program b => Line.layout "Program" (stray "block" b) (Line.part b.isNode b.lines)
  | nothing => [⟨0, inspect nothing⟩]
  | integer v => [⟨0, inspect (integer v)⟩]
  | text s => [⟨0, inspect (text s)⟩]

def allLines : List Node → List (List Line)
  | [] => []
  | t :: ts => t.lines :: allLines ts

end

/-- The text of a tree whose own lines are indented by the given number of levels. -/
def display (t : Node) (indents : Int) : String :=
  "\n".intercalate (t.lines.map (Line.indented indents))

/-- The text of a tree by itself. A stray text is shown without quotes. -/
def bare : Node → String
  | text s => s
  | t => t.display 0

end Node
end CallSite
