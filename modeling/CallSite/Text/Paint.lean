/-! Bold and coloured text for a terminal. A painted text opens with the sequence for bold and then the one
for its colour, if it has one, and closes with the sequence that resets both. -/

namespace CallSite.Text

inductive Colour where
  | black | grey | red | green | yellow | blue | magenta | cyan | lightGrey
  | darkGrey | lightRed | lightGreen | lightYellow | lightBlue | lightMagenta | lightCyan | white
  deriving DecidableEq, Repr

namespace Colour

/-- The number that selects the colour. Grey is another name for black, and white is the bright one. -/
def code : Colour → Nat
  | black => 30
  | grey => 30
  | red => 31
  | green => 32
  | yellow => 33
  | blue => 34
  | magenta => 35
  | cyan => 36
  | lightGrey => 37
  | darkGrey => 90
  | lightRed => 91
  | lightGreen => 92
  | lightYellow => 93
  | lightBlue => 94
  | lightMagenta => 95
  | lightCyan => 96
  | white => 97

def name : Colour → String
  | black => "black"
  | grey => "grey"
  | red => "red"
  | green => "green"
  | yellow => "yellow"
  | blue => "blue"
  | magenta => "magenta"
  | cyan => "cyan"
  | lightGrey => "light_grey"
  | darkGrey => "dark_grey"
  | lightRed => "light_red"
  | lightGreen => "light_green"
  | lightYellow => "light_yellow"
  | lightBlue => "light_blue"
  | lightMagenta => "light_magenta"
  | lightCyan => "light_cyan"
  | white => "white"

def all : List Colour :=
  [black, grey, red, green, yellow, blue, magenta, cyan, lightGrey, darkGrey, lightRed, lightGreen,
    lightYellow, lightBlue, lightMagenta, lightCyan, white]

/-- The colour with a given name. -/
def ofName? (s : String) : Option Colour := all.find? fun c => c.name == s

@[simp] theorem ofName?_name (c : Colour) : ofName? c.name = some c := by
  cases c <;> decide

end Colour

/-- The sequence that a terminal reads as one numbered instruction. -/
def instruction (code : Nat) : String := "\x1b[" ++ toString code ++ "m"

/-- Bold text, in a colour if one is given. -/
def bold (colour : Option Colour) (s : String) : String :=
  let tint := match colour with
    | some c => instruction c.code
    | none => ""
  instruction 1 ++ tint ++ s ++ instruction 0

/-- Whether output goes to a terminal that shows colours. -/
inductive Palette where
  | plain | terminal
  deriving DecidableEq, Repr

/-- Bold text where it can be shown, and the bare text elsewhere. -/
def Palette.bold : Palette → Option Colour → String → String
  | plain, _, s => s
  | terminal, colour, s => Text.bold colour s

@[simp] theorem Palette.bold_plain (colour : Option Colour) (s : String) :
    Palette.plain.bold colour s = s := rfl

end CallSite.Text
