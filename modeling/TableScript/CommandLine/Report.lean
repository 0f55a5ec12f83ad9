import TableScript.Files
import TableScript.Frame
import TableScript.Pipeline

/-!
# Error reports

A failure is reported with its message and below it, if it has any, its causes, each of which may have a
cause of its own. Several causes are numbered.
-/

namespace TableScript

/-- The causes of the error, the nearest first. -/
def CsvError.causes : CsvError → List String
  | unequalLengths .. => []
  | invalidText _ field offset =>
    ["invalid utf-8: invalid UTF-8 in field " ++ toString field ++ " near byte index " ++ toString offset]
  | unreadable cause => [cause.message]

/-- The causes of the error, the nearest first. -/
def FrameError.causes : FrameError → List String
  | csv cause => cause.message :: cause.causes
  | file cause => [cause.message]
  | _ => []

/-- The causes of the error, the nearest first. That of a frame stands for the step's own. -/
def Step.StepError.causes : Step.StepError → List String
  | script cause => [cause.message]
  | frame cause => cause.causes
  | _ => []

/-- The causes of the error, the nearest first. -/
def PipelineError.causes : PipelineError → List String
  | execution _ _ cause => cause.message :: cause.causes
  | replay _ cause => cause.message :: cause.causes
  | _ => []

namespace CommandLine

/-- A message and its causes, the nearest first. -/
structure Report where
  message : String
  causes : List String

namespace Report

/-- A failure that is its own cause of another one, which is said first. -/
def within (context message : String) (causes : List String) : Report := ⟨context, message :: causes⟩

/-- A cause with a mark in front, its further lines indented as far as the mark. -/
def causeText (mark : String) (cause : String) : String :=
  mark ++ ("\n" ++ String.ofList (List.replicate mark.length ' ')).intercalate (cause.splitOn "\n")

/-- The causes with their numbers, of which the first is given. -/
def numbered (first : Nat) : List String → List String
  | [] => []
  | cause :: rest =>
    let number := toString first
    let blanks := String.ofList (List.replicate (5 - number.length) ' ')
    causeText (blanks ++ number ++ ": ") cause :: numbered (first + 1) rest

/-- The report as a text. -/
def text (report : Report) : String :=
  "Error: " ++ report.message ++ (match report.causes with
    | [] => ""
    | [cause] => "\n\nCaused by:\n" ++ causeText "    " cause
    | causes => "\n\nCaused by:\n" ++ "\n".intercalate (numbered 0 causes)) ++ "\n"

end Report

end CommandLine

end TableScript
