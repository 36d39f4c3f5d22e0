import CallSite.Fault
import CallSite.Text.Paint

/-! Diagnostics. The arguments of a message are painted one by one and then put in where the plain ones would
stand; everything around them is painted piece by piece. -/

namespace CallSite

open Text (Palette Colour)

inductive PaintError where
  | unknownColour (name : String)
  deriving DecidableEq, Repr

def PaintError.message : PaintError → String
  | unknownColour name => Text.quote name

inductive Severity where
  | error | warning
  deriving DecidableEq, Repr

namespace Severity

def colour : Severity → Colour
  | error => .red
  | warning => .magenta

def heading : Severity → String
  | error => "error: "
  | warning => "warning: "

end Severity

namespace Fault

/-- The message with its arguments in bold. -/
def painted (f : Fault) (palette : Palette) (colour : Option Colour) : String :=
  f.cause.message.fill (palette.bold colour)

/-- The message with its arguments in bold and in a colour given by name. A name that is no colour is refused,
if there is anything to paint. -/
def paintedIn (f : Fault) (palette : Palette) (colour : Option String) : Except PaintError String :=
  match palette, colour with
  | .terminal, some name =>
    match Colour.ofName? name with
    | some c => .ok (f.painted palette (some c))
    | none =>
      if f.cause.message.args.isEmpty then .ok (f.painted palette none) else .error (.unknownColour name)
  | _, _ => .ok (f.painted palette none)

/-- The place that a diagnostic points at. -/
def location (f : Fault) (path : String) : String :=
  match f.line with
  | some line => path ++ ":" ++ toString line ++ ": "
  | none => path ++ ": "

/-- The diagnostic of a fault in the program with the given path. -/
def diagnostic (f : Fault) (path : String) (palette : Palette) (severity : Severity) : String :=
  palette.bold none (f.location path) ++
    (if f.cause.isInternal then palette.bold (some severity.colour) "[internal] " else "") ++
    palette.bold (some severity.colour) severity.heading ++
    palette.bold none (f.cause.kind ++ ": ") ++
    f.painted palette none

/-- Without colours the painted message is the plain one. -/
@[simp] theorem painted_plain (f : Fault) (colour : Option Colour) : f.painted .plain colour = f.text := rfl

@[simp] theorem paintedIn_plain (f : Fault) (name : Option String) :
    f.paintedIn .plain name = .ok f.text := rfl

/-- The name of a colour is never refused. -/
@[simp] theorem paintedIn_name (f : Fault) (palette : Palette) (colour : Option Colour) :
    f.paintedIn palette (colour.map Colour.name) = .ok (f.painted palette colour) := by
  cases palette <;> cases colour <;> simp [paintedIn]

end Fault
end CallSite
