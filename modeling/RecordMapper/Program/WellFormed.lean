import RecordMapper.Program.Target

/-!
# Checked programs

A program in JavaScript is checked as a script; one in the other language is not checked. What is wrong with a
script is not for this library to say: the checker is a parameter of all that checks programs.
-/

namespace RecordMapper.Program

/-- A checker of scripts: what it finds wrong with a text, which is nothing if it can be read. -/
class ScriptChecker where
  faults : String → List String

/-- What is wrong with a program as a text. -/
def textErrors [ScriptChecker] (t : Target) (code : String) : List String :=
  match t with
  | .python => []
  | .javaScript => ScriptChecker.faults code

end RecordMapper.Program
