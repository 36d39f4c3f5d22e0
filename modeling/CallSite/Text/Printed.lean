/-! The lines that a program prints. Every value is followed by a space, the last one too, and the line ends
with a newline. -/

namespace CallSite.Text

/-- The line that shows the given values. -/
def printedLine (values : List Int) : String :=
  String.join (values.map fun v => toString v ++ " ") ++ "\n"

theorem printedLine_nil : printedLine [] = "\n" := rfl

theorem printedLine_cons (v : Int) (vs : List Int) :
    printedLine (v :: vs) = toString v ++ " " ++ printedLine vs := by
  simp [printedLine, String.append_assoc]

theorem printedLine_singleton (v : Int) : printedLine [v] = toString v ++ " \n" := by
  rw [printedLine_cons, printedLine_nil, String.append_assoc]
  rfl

end CallSite.Text
