import CallSite.Text.Digit
import CallSite.Text.Quoted

/-! Message templates. A pair of braces is a hole for an argument: empty braces take the next argument,
braces around a number take the argument with that number, and one template keeps to one of the two ways.
Numbers in brackets behind that pick single characters. A doubled brace stands for itself. Templates are read
from left to right and refused at their first fault; arguments are put in as they are and never read as
templates. -/

namespace CallSite.Text

inductive TemplateError where
  | strayClosing
  | strayOpening
  | unclosed
  | openingInHole
  | automaticAfterNumbered
  | numberedAfterAutomatic
  | numberTooLarge
  | outOfRange (index : Nat)
  | unknownName (name : String)
  | emptySelection
  | unknownSelection
  | noCharacter
  | notCharacter
  | noAttribute (name : String)
  deriving DecidableEq, Repr

def TemplateError.message : TemplateError → String
  | .strayClosing => "Single '\x7d' encountered in format string"
  | .strayOpening => "Single '\x7b' encountered in format string"
  | .unclosed => "expected '\x7d' before end of string"
  | .openingInHole => "unexpected '\x7b' in field name"
  | .automaticAfterNumbered =>
    "cannot switch from manual field specification to automatic field numbering"
  | .numberedAfterAutomatic =>
    "cannot switch from automatic field numbering to manual field specification"
  | .numberTooLarge => "Too many decimal digits in format string"
  | .outOfRange index =>
    "Replacement index " ++ toString index ++ " out of range for positional args tuple"
  | .unknownName name => quote name
  | .emptySelection => "Empty attribute in format string"
  | .unknownSelection => "Only '.' or '[' may follow ']' in format field specifier"
  | .noCharacter => "string index out of range"
  | .notCharacter => "string indices must be integers, not 'str'"
  | .noAttribute name => "'str' object has no attribute '" ++ name ++ "'"

/-- The character of a text with a given number, counted from zero. -/
def charAt? (s : String) (n : Nat) : Option String := s.toList[n]?.map Char.toString

/-- What is left of a text after one character was picked from it, and one from that, and so on. -/
def pick (s : String) (picks : List Nat) : String := picks.foldl (fun s n => (charAt? s n).getD "") s

@[simp] theorem pick_nil (s : String) : pick s [] = s := rfl

/-- A piece of a template that is used with `count` arguments. -/
inductive Segment (count : Nat) where
  | char (c : Char)
  | hole (index : Fin count) (picks : List Nat)
  deriving DecidableEq, Repr

/-- How the holes met so far choose their arguments. -/
inductive Numbering where
  | undecided
  | automatic (next : Nat)
  | numbered
  deriving DecidableEq, Repr

/-- What may follow the choice of an argument in a hole. -/
inductive Selection where
  | item (content : List Char)
  | attribute (content : List Char)
  | stray
  deriving DecidableEq, Repr

/-- Where a reader of selections stands: between two of them, or in one after the given characters, last first. -/
inductive Place where
  | between
  | item (seen : List Char)
  | attribute (seen : List Char)
  deriving DecidableEq, Repr

/-- The selections in the rest of a hole. -/
def selections : Place → List Char → List Selection
  | .between, [] => []
  | .between, '[' :: rest => selections (.item []) rest
  | .between, '.' :: rest => selections (.attribute []) rest
  | .between, _ :: _ => [.stray]
  | .item seen, [] => [.item seen.reverse]
  | .item seen, ']' :: rest => .item seen.reverse :: selections .between rest
  | .item seen, c :: rest => selections (.item (c :: seen)) rest
  | .attribute seen, [] => [.attribute seen.reverse]
  | .attribute seen, '[' :: rest => .attribute seen.reverse :: selections (.item []) rest
  | .attribute seen, '.' :: rest => .attribute seen.reverse :: selections (.attribute []) rest
  | .attribute seen, c :: rest => selections (.attribute (c :: seen)) rest

/-- The numbers that selections pick from a text by. Texts have characters and no attributes. -/
def picksOf (s : String) : List Selection → Except TemplateError (List Nat)
  | [] => .ok []
  | .stray :: _ => .error .unknownSelection
  | .attribute [] :: _ => .error .emptySelection
  | .attribute name :: _ => .error (.noAttribute (String.ofList name))
  | .item content :: rest =>
    match read content with
    | .tooLarge => .error .numberTooLarge
    | .word => .error (if content = [] then .emptySelection else .notCharacter)
    | .number n =>
      match charAt? s n with
      | none => .error .noCharacter
      | some c => do return n :: (← picksOf c rest)

/-- The argument that a hole chooses by the given characters, and the numbering from there on. -/
def choose (choice : List Char) (mode : Numbering) : Except TemplateError (Nat × Numbering) :=
  if choice = [] then
    match mode with
    | .undecided => .ok (0, .automatic 1)
    | .automatic next => .ok (next, .automatic (next + 1))
    | .numbered => .error .automaticAfterNumbered
  else
    match read choice, mode with
    | .tooLarge, _ => .error .numberTooLarge
    | .word, _ => .error (.unknownName (String.ofList choice))
    | .number _, .automatic _ => .error .numberedAfterAutomatic
    | .number n, _ => .ok (n, .numbered)

/-- The hole for an argument that has to exist, and for what its selections pick from that argument. -/
def holeAt (args : List String) (index : Nat) (selected : List Selection) :
    Except TemplateError (Segment args.length) :=
  if h : index < args.length then do return .hole ⟨index, h⟩ (← picksOf args[index] selected)
  else .error (.outOfRange index)

/-- Whether a character ends the choice of an argument. -/
def startsSelection (c : Char) : Bool := c = '.' || c = '['

/-- The hole with the given content, and the numbering from there on. -/
def holeOf (args : List String) (content : List Char) (mode : Numbering) :
    Except TemplateError (Segment args.length × Numbering) := do
  let (index, mode) ← choose (content.takeWhile fun c => !startsSelection c) mode
  let selected := selections .between (content.dropWhile fun c => !startsSelection c)
  return (← holeAt args index selected, mode)

/-- Where a reader of templates stands: outside any hole, or inside one after the given characters, last first.
Inside brackets a hole's characters have no meaning of their own. -/
inductive Position where
  | outside
  | inside (seen : List Char)
  | inBrackets (seen : List Char)
  deriving DecidableEq, Repr

/-- The pieces of a template from a given position on. -/
def scanFrom (args : List String) :
    Numbering → Position → List Char → Except TemplateError (List (Segment args.length))
  | _, .outside, [] => .ok []
  | _, .inside _, [] => .error .unclosed
  | _, .inBrackets _, [] => .error .unclosed
  | mode, .outside, '\x7b' :: '\x7b' :: rest => do
    return .char '\x7b' :: (← scanFrom args mode .outside rest)
  | mode, .outside, '\x7d' :: '\x7d' :: rest => do
    return .char '\x7d' :: (← scanFrom args mode .outside rest)
  | _, .outside, ['\x7b'] => .error .strayOpening
  | _, .outside, '\x7d' :: _ => .error .strayClosing
  | mode, .outside, '\x7b' :: rest => scanFrom args mode (.inside []) rest
  | mode, .outside, c :: rest => do
    return .char c :: (← scanFrom args mode .outside rest)
  | mode, .inside seen, '\x7d' :: rest => do
    let (hole, mode) ← holeOf args seen.reverse mode
    return hole :: (← scanFrom args mode .outside rest)
  | _, .inside _, '\x7b' :: _ => .error .openingInHole
  | mode, .inside seen, '[' :: rest => scanFrom args mode (.inBrackets ('[' :: seen)) rest
  | mode, .inside seen, c :: rest => scanFrom args mode (.inside (c :: seen)) rest
  | mode, .inBrackets seen, ']' :: rest => scanFrom args mode (.inside (']' :: seen)) rest
  | mode, .inBrackets seen, c :: rest => scanFrom args mode (.inBrackets (c :: seen)) rest

/-- The pieces of a template that is used with the given arguments. -/
def scan (args : List String) (template : String) : Except TemplateError (List (Segment args.length)) :=
  scanFrom args .undecided .outside template.toList

end CallSite.Text
