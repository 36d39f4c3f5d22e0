import CallSite.Text.Template

/-! Messages. A message is a template with arguments that fit it, so it can be shown at any time and in any
way: its pieces are known, and only how its arguments look is still open. -/

namespace CallSite.Text

/-- A template together with arguments for which it has no fault. -/
structure Message where
  template : String
  args : List String
  pieces : List (Segment args.length)
  scanned : scan args template = .ok pieces
  deriving DecidableEq

namespace Message

/-- The message of a template and its arguments, or the template's first fault. -/
def make (template : String) (args : List String) : Except TemplateError Message :=
  match h : scan args template with
  | .ok pieces => .ok ⟨template, args, pieces, h⟩
  | .error fault => .error fault

/-- The message of a template that is known to fit its arguments. -/
def ofFitting (template : String) (args : List String)
    (fits : (scan args template).isOk = true) : Message :=
  match h : scan args template with
  | .ok pieces => ⟨template, args, pieces, h⟩
  | .error _ => by simp [h, Except.isOk, Except.toBool] at fits

@[simp] theorem template_ofFitting (template : String) (args : List String) (fits) :
    (ofFitting template args fits).template = template := by
  unfold ofFitting
  split
  · rfl
  · next h => simp [h, Except.isOk, Except.toBool] at fits

@[simp] theorem args_ofFitting (template : String) (args : List String) (fits) :
    (ofFitting template args fits).args = args := by
  unfold ofFitting
  split
  · rfl
  · next h => simp [h, Except.isOk, Except.toBool] at fits

/-- The text of a message whose arguments are shown in the given way. -/
def fill (m : Message) (shown : String → String) : String :=
  String.join (m.pieces.map fun
    | .char c => c.toString
    | .hole i picks => pick (shown (m.args.get i)) picks)

/-- The plain text of a message. -/
def text (m : Message) : String := m.fill id

end Message
end CallSite.Text
