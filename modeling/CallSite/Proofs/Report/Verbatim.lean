import CallSite.Report.Reporter
import CallSite.Proofs.Text.Refill

/-! Errors that name what a program or its host chose. A name may hold braces, quotes or newlines; it
is an argument of the message and never a part of the template, so it is put in as it is, or painted,
and no way of reporting the error can fail. -/

namespace CallSite

open Text (Message Segment Palette Colour spell)

/-- An error with what it names: names from the program, or the kind and text of an error that is
none of the program's. -/
inductive Naming where
  | unboundVariable (name : String)
  | unboundFunction (name : String)
  | duplicateDeclaration (name what : String)
  | arityMismatch (name : String) (expected actual : Int)
  | unknownError (kind text : String)
  deriving DecidableEq, Repr

namespace Naming

def cause : Naming → Cause
  | unboundVariable name => .unboundVariable name
  | unboundFunction name => .unboundFunction name
  | duplicateDeclaration name what => .duplicateDeclaration name what
  | arityMismatch name expected actual => .arityMismatch name expected actual
  | unknownError kind text => .unknownError (kind ++ ": " ++ text)

def template : Naming → String
  | unboundVariable _ => "variable '\x7b\x7d' is not declared in this scope"
  | unboundFunction _ => "function '\x7b\x7d' is not declared in this scope"
  | duplicateDeclaration .. => "\x7b\x7d '\x7b\x7d' is already declared in this scope"
  | arityMismatch .. => "function '\x7b\x7d' expects \x7b\x7d argument(s), got \x7b\x7d"
  | unknownError .. => "unknown error: '\x7b\x7d'"

/-- What fills the holes of the template, from left to right. -/
def args : Naming → List String
  | unboundVariable name => [name]
  | unboundFunction name => [name]
  | duplicateDeclaration name what => [what, name]
  | arityMismatch name expected actual => [name, toString expected, toString actual]
  | unknownError kind text => [kind ++ ": " ++ text]

/-- The text of the error when what it names is shown in the given way. -/
def wording (shown : String → String) : Naming → String
  | unboundVariable name => "variable '" ++ shown name ++ "' is not declared in this scope"
  | unboundFunction name => "function '" ++ shown name ++ "' is not declared in this scope"
  | duplicateDeclaration name what =>
    shown what ++ " '" ++ shown name ++ "' is already declared in this scope"
  | arityMismatch name expected actual =>
    "function '" ++ shown name ++ "' expects " ++ shown (toString expected) ++
      " argument(s), got " ++ shown (toString actual)
  | unknownError kind text => "unknown error: '" ++ shown (kind ++ ": " ++ text) ++ "'"

def pieces : (e : Naming) → List (Segment e.args.length)
  | unboundVariable _ =>
    spell "variable '" ++ .hole ⟨0, by simp [args]⟩ [] :: spell "' is not declared in this scope"
  | unboundFunction _ =>
    spell "function '" ++ .hole ⟨0, by simp [args]⟩ [] :: spell "' is not declared in this scope"
  | duplicateDeclaration .. =>
    .hole ⟨0, by simp [args]⟩ [] :: spell " '" ++ .hole ⟨1, by simp [args]⟩ [] ::
      spell "' is already declared in this scope"
  | arityMismatch .. =>
    spell "function '" ++ .hole ⟨0, by simp [args]⟩ [] :: spell "' expects " ++
      .hole ⟨1, by simp [args]⟩ [] :: spell " argument(s), got " ++ [.hole ⟨2, by simp [args]⟩ []]
  | unknownError .. => spell "unknown error: '" ++ .hole ⟨0, by simp [args]⟩ [] :: spell "'"

variable {e : Naming}

theorem scan_template (e : Naming) : Text.scan e.args e.template = .ok e.pieces := by
  cases e <;> (dsimp only [template, args, pieces]; rfl)

theorem message_cause (e : Naming) :
    e.cause.message = ⟨e.template, e.args, e.pieces, e.scan_template⟩ := by
  have fits : (Text.scan e.args e.template).isOk = true := by
    rw [scan_template]
    rfl
  have made : e.cause.message = .ofFitting e.template e.args fits := by cases e <;> rfl
  rw [made, Message.ofFitting_of_scan e.scan_template]

theorem whole_message (e : Naming) : e.cause.message.Whole := by
  rw [message_cause]
  unfold Message.Whole
  cases e <;> unfold pieces <;>
    simp only [List.forall_mem_append, List.forall_mem_cons, Text.forall_mem_spell,
      Segment.picks_char, Segment.picks_hole, List.not_mem_nil, false_implies, implies_true,
      and_self]

/-- What an error names is shown at its place and not read. -/
theorem fill_message (e : Naming) (shown : String → String) :
    e.cause.message.fill shown = e.wording shown := by
  rw [message_cause, Message.fill_eq]
  cases e <;> unfold pieces wording <;>
    simp only [List.map_append, List.map_cons, Segment.text, List.get_eq_getElem,
      String.join_append, String.join_cons, Text.join_spell, Text.pick_nil] <;>
    simp [args, String.append_assoc]

/-- An error keeps the first line that it is placed on, and nothing else about it ever changes. -/
theorem foldl_onLine (f : Fault) (lines : List (Option Int)) :
    lines.foldl Fault.onLine f = ⟨f.cause, (f.line :: lines).findSome? id⟩ := by
  induction lines generalizing f with
  | nil => obtain ⟨cause, _ | line⟩ := f <;> rfl
  | cons line lines ih =>
    rw [List.foldl_cons, ih]
    obtain ⟨cause, _ | first⟩ := f <;> rfl

/-- An error that names something can always be made, whatever the names are, and its message is the
fixed wording with the names at their places. The template fits the names in whatever way they are
shown, so the error can be placed on lines, shown as a text, with or without colours, and reported.
An error that is none of the program's is reported as one that names its kind and text. -/
theorem names_shown_verbatim (e : Naming) (line : Option Int) (lines : List (Option Int))
    (r : Reporter) :
    let f : Fault := lines.foldl Fault.onLine ⟨e.cause, line⟩
    Message.make e.template e.args = .ok e.cause.message ∧
      e.cause.message.text = e.wording id ∧
      (∀ shown, ∃ m, Message.make e.template (e.args.map shown) = .ok m ∧
        m.text = e.wording shown) ∧
      f.line = (line :: lines).findSome? id ∧
      f.summary = (match f.line with
        | some n => toString n ++ ": "
        | none => "") ++ e.cause.kind ++ ": " ++ e.wording id ∧
      (∀ colour : Option Colour, f.paintedIn r.palette (colour.map Colour.name) =
        .ok (e.wording (r.palette.bold colour))) ∧
      (∀ severity : Severity, f.diagnostic r.path r.palette severity =
        r.palette.bold none (f.location r.path) ++
          (if e.cause.isInternal then r.palette.bold (some severity.colour) "[internal] "
            else "") ++
          r.palette.bold (some severity.colour) severity.heading ++
          r.palette.bold none (e.cause.kind ++ ": ") ++ e.wording (r.palette.bold none)) ∧
      (r.throw f).1 =
        { r with written := r.written ++ (f.diagnostic r.path r.palette .error ++ "\n") } ∧
      ∀ kind text, (r.conclude (some (.foreign kind text))).1 =
        (r.throw ⟨(unknownError kind text).cause, none⟩).1 := by
  intro f
  have placed : f = ⟨e.cause, (line :: lines).findSome? id⟩ := foldl_onLine _ lines
  have cause : f.cause = e.cause := by rw [placed]
  have painted : ∀ colour, f.painted r.palette colour = e.wording (r.palette.bold colour) :=
    fun colour => by rw [Fault.painted, cause, fill_message]
  have text : f.text = e.wording id := by rw [Fault.text, cause, Message.text, fill_message]
  refine ⟨?_, fill_message e id, fun shown => ?_, by rw [placed], ?_, fun colour => ?_,
    fun severity => ?_, rfl, fun _ _ => rfl⟩
  · rw [message_cause]
    exact Message.make_of_scan e.scan_template
  · obtain ⟨m, made, same⟩ := Message.exists_make_map e.whole_message shown
    rw [fill_message] at same
    rw [message_cause] at made
    exact ⟨m, made, same⟩
  · cases place : f.line <;> simp only [Fault.summary, place, cause, text]
  · rw [Fault.paintedIn_name, painted]
  · rw [Fault.diagnostic, cause, painted]

example : (Cause.unboundVariable "\x7b0\x7d\n\x7b").message.text =
    "variable '\x7b0\x7d\n\x7b' is not declared in this scope" := by decide +kernel

end Naming
end CallSite
