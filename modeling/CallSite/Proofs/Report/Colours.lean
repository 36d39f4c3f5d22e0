import CallSite.Report.Painted
import CallSite.Proofs.Text.PrintedLines
import CallSite.Proofs.Text.Refill
import CallSite.Proofs.Text.Unpainted

/-! Diagnostics with and without colours. The arguments of a message are painted before they are put
into its template, which may use them in any order, many times or not at all. The template fits the
painted arguments as it fitted the bare ones, and without the paint the text is the bare one. -/

namespace CallSite

open Text (Message Palette Colour Paints)

namespace Text.Message
variable {m : Message}

/-- Painted arguments paint the text of a message that shows them as wholes. -/
theorem paints_fill (whole : m.Whole) (palette : Palette) (colour : Option Colour)
    (template_clean : esc ∉ m.template.toList) (args_clean : ∀ arg ∈ m.args, esc ∉ arg.toList) :
    Paints (m.fill (palette.bold colour)) m.text := by
  rw [text, fill_eq, fill_eq]
  refine Paints.join fun p mem => ?_
  cases p with
  | char c =>
    refine Paints.of_clean fun inside => template_clean ?_
    obtain rfl : esc = c := by simpa [Segment.text] using inside
    exact mem_template mem
  | hole i picks =>
    obtain rfl : picks = [] := whole _ mem
    exact Paints.palette palette colour (args_clean _ (List.get_mem _ _))

end Text.Message

namespace Fault
variable {f : Fault} {path : String}

theorem esc_not_mem_location (path_clean : Text.esc ∉ path.toList) :
    Text.esc ∉ (f.location path).toList := by
  have line_clean : ∀ line : Int, Text.esc ∉ (toString line).toList :=
    fun _ => Text.not_mem_toString (by decide)
  unfold location
  split <;> simp only [String.toList_append, List.mem_append, not_or]
  · next line _ => exact ⟨⟨⟨path_clean, by decide⟩, line_clean line⟩, by decide⟩
  · exact ⟨path_clean, by decide⟩

theorem esc_not_mem_kind (cause : Cause) : Text.esc ∉ (cause.kind ++ ": ").toList := by
  cases cause <;> (dsimp only [Cause.kind]; decide)

/-- A diagnostic with colours is the one without them, with paint. -/
theorem paints_diagnostic (whole : f.cause.message.Whole) (palette : Palette) (severity : Severity)
    (path_clean : Text.esc ∉ path.toList)
    (template_clean : Text.esc ∉ f.cause.message.template.toList)
    (args_clean : ∀ arg ∈ f.cause.message.args, Text.esc ∉ arg.toList) :
    Paints (f.diagnostic path palette severity) (f.diagnostic path .plain severity) := by
  have location : Paints (palette.bold none (f.location path)) (f.location path) :=
    .palette _ _ (esc_not_mem_location path_clean)
  have mark : Paints
      (if f.cause.isInternal then palette.bold (some severity.colour) "[internal] " else "")
      (if f.cause.isInternal then "[internal] " else "") := by
    split
    · exact .palette _ _ (by decide)
    · exact .of_clean (by decide)
  have heading : Paints (palette.bold (some severity.colour) severity.heading) severity.heading :=
    .palette _ _ (by cases severity <;> decide)
  have kind : Paints (palette.bold none (f.cause.kind ++ ": ")) (f.cause.kind ++ ": ") :=
    .palette _ _ (esc_not_mem_kind f.cause)
  have message : Paints (f.painted palette none) f.text :=
    Message.paints_fill whole palette none template_clean args_clean
  exact (((location.append mark).append heading).append kind).append message

/-- If the path, the template and the arguments of an error hold no instructions of their own, its
diagnostic without colours is what the one with colours leaves when the instructions are removed.
The same is true of its message in whatever colour, for which the template is filled anew with the
painted arguments and never refuses them. -/
theorem diagnostic_unpainted (f : Fault) (path : String) (severity : Severity)
    (whole : f.cause.message.Whole)
    (clean : ∀ s ∈ path :: f.cause.message.template :: f.cause.message.args,
      Text.esc ∉ s.toList) :
    f.diagnostic path .plain severity =
        (match f.line with
          | some line => path ++ ":" ++ toString line ++ ": "
          | none => path ++ ": ") ++
        (if f.cause.isInternal then "[internal] " else "") ++
        (match severity with
          | .error => "error: "
          | .warning => "warning: ") ++
        (f.cause.kind ++ ": ") ++ f.text ∧
      Text.unpainted (f.diagnostic path .terminal severity) = f.diagnostic path .plain severity ∧
      (∀ name, f.paintedIn .plain name = .ok f.text) ∧
      ∀ colour : Option Colour, ∃ m,
        Message.make f.cause.message.template
            (f.cause.message.args.map (Palette.terminal.bold colour)) = .ok m ∧
          f.paintedIn .terminal (colour.map Colour.name) = .ok m.text ∧
          Text.unpainted m.text = f.text := by
  obtain ⟨path_clean, template_clean, args_clean⟩ := by simpa using clean
  refine ⟨by cases severity <;> rfl, ?_, paintedIn_plain f, fun colour => ?_⟩
  · exact (paints_diagnostic whole _ _ path_clean template_clean args_clean).unpainted_eq
  · obtain ⟨m, made, shown⟩ := Message.exists_make_map whole (Palette.terminal.bold colour)
    refine ⟨m, made, ?_, ?_⟩
    · rw [paintedIn_name, shown]
      rfl
    · rw [shown]
      exact (Message.paints_fill whole _ _ template_clean args_clean).unpainted_eq

/-- The holes are out of order, one argument is shown twice and one not at all, and an argument
looks like a hole. -/
theorem diagnostic_unpainted_disordered :
    let template := "\x7b1\x7d\x7b\x7b\x7b0\x7d\x7d\x7d [1m\x7b1\x7d"
    let args := ["", "\x7b0\x7d", "surplus"]
    let m : Message := .ofFitting template args (by decide +kernel)
    let f : Fault := ⟨.general m true, some (-3)⟩
    let plain := "a\x7b\x7d:-3: [internal] warning: GenericException: \x7b0\x7d\x7b\x7d [1m\x7b0\x7d"
    m.Whole ∧ (∀ s ∈ "a\x7b\x7d" :: m.template :: m.args, Text.esc ∉ s.toList) ∧
      f.diagnostic "a\x7b\x7d" .plain .warning = plain ∧
      Text.unpainted (f.diagnostic "a\x7b\x7d" .terminal .warning) = plain := by
  intro template args m f plain
  have whole : m.Whole := by decide +kernel
  have clean : ∀ s ∈ "a\x7b\x7d" :: m.template :: m.args, Text.esc ∉ s.toList := by decide +kernel
  have same : f.diagnostic "a\x7b\x7d" .plain .warning = plain := by decide +kernel
  obtain ⟨-, unpainted, -, -⟩ := diagnostic_unpainted f "a\x7b\x7d" .warning whole clean
  exact ⟨whole, clean, same, unpainted.trans same⟩

end Fault
end CallSite
