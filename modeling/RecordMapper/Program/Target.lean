import RecordMapper.Program.Lines
import RecordMapper.Program.Quoted

/-!
# Target languages

A program is written in one of two languages. Both say the same things in the same order; how a
literal, a comment, a delayed expression or a call is written is decided here.
-/

namespace RecordMapper

/-- A language in which programs are written. -/
inductive Target where
  | python
  | javaScript
deriving DecidableEq

namespace Program

/-- How tightly an expression holds together: like a name, like a bracketed collection, or not at
all. -/
inductive Order where
  | atomic
  | collection
  | none
deriving DecidableEq

/-- Whether a text, blanks around it apart, is empty or the literal of the empty text. -/
def isEmptyLiteral (code : String) : Bool :=
  let code := Text.trim code
  code == "" || code == "\x27\x27" || code == "\x22\x22"

/-- The text with something put before each line, unless it is empty or an empty literal. -/
def indentNonempty (text lead : String) : String :=
  if isEmptyLiteral text then text else indent text lead

end Program

namespace Target

open Program

/-- The name of a target. -/
def name : Target → String
  | python => "python"
  | javaScript => "javascript"

/-- The target with exactly this name. -/
def ofName? (name : String) : Option Target :=
  [python, javaScript].find? (·.name == name)

theorem ofName?_name (t : Target) : ofName? t.name = some t := by
  cases t <;> decide

/-- The target that a name or its short form stands for, blanks around it and case apart. -/
def parse? (text : String) : Option Target :=
  let word := Text.asciiLower (Text.trim text)
  if word == "python" || word == "py" then some python
  else if word == "javascript" || word == "js" then some javaScript
  else none

/-- The literal of a text. -/
def quote : Target → String → String
  | python, s => quoteEither s
  | javaScript, s => quoteSingle s

/-- What starts a comment. -/
def commentMark : Target → String
  | python => "# "
  | javaScript => "// "

/-- A text as comment lines. -/
def comment (t : Target) (text : String) : String := indent (text ++ "\n") t.commentMark

/-- The number by which the language ranks an order, as a text. -/
def orderText : Target → Order → String
  | _, .atomic => "0"
  | python, .collection => "1"
  | javaScript, .collection => "1.2"
  | _, .none => "99"

/-- An expression that is evaluated when it is asked for. -/
def thunk : Target → String → String
  | python, body => "lambda: " ++ body
  | javaScript, body => "() => " ++ body

/-- The call that turns a value into text. -/
def textCall : Target → String → String
  | python, code => "str(" ++ code ++ ")"
  | javaScript, code => "String(" ++ code ++ ")"

/-- The call that resolves a pointer in the current document. -/
def pointerCall : Target → String → String
  | python, query => "jsonpath.pointer.resolve(" ++ query ++ ", executor.current_source_json)"
  | javaScript, query => "jsonpointer.get(executor.current_source_json, " ++ query ++ ")"

/-- The call that collects what a path matches in the current document. -/
def pathCall : Target → String → String
  | python, query => "jsonpath.findall(" ++ query ++ ", executor.current_source_json)"
  | javaScript, query => "jsonpath.get(executor.current_source_json, " ++ query ++ ")"

/-- The literal of a truth value. -/
def truth : Target → Bool → String
  | python, b => if b then "True" else "False"
  | javaScript, b => if b then "true" else "false"

/-- The literal of null. -/
def null : Target → String
  | python => "None"
  | javaScript => "null"

/-- The line that opens a design. -/
def designOpen : Target → String
  | python => "EXECUTOR.addDesign(RecordDesign()\n"
  | javaScript => "EXECUTOR.addDesign(new RecordDesign()\n"

/-- The line that closes a design. -/
def designClose : Target → String
  | python => ")\n"
  | javaScript => ");\n"

/-- What a backlink starts with. -/
def backlinkOpen : Target → String
  | python => "BackwardLinkFor("
  | javaScript => "new BackwardLinkFor("

/-- An expression as a statement of its own. -/
def nakedValue : Target → String → String
  | python, code => code ++ "\n"
  | javaScript, code => code ++ ";\n"

/-- The step that sets the id of a design; none for an empty literal. -/
def setId (t : Target) (code : String) : String :=
  if isEmptyLiteral code then "" else ".setId(" ++ t.thunk (t.textCall code) ++ ")\n"

/-- The step that sets the skip condition of a design. -/
def setSkip (t : Target) (code : String) : String :=
  ".setSkipCondition(" ++ t.thunk code ++ ")\n"

/-- Whether an expression is a backlink. -/
def isBacklink (t : Target) (code : String) : Bool := t.backlinkOpen.toList.isPrefixOf code.toList

/-- The step that adds a value under a key. A backlink is handed over as it is, any other value
is evaluated for each document. -/
def addAttribute (t : Target) (key value : String) : String :=
  ".addAttribute(" ++ key ++ ", " ++ (if t.isBacklink value then value else t.thunk value) ++ ")\n"

theorem addAttribute_eq (t : Target) (key value : String) :
    t.addAttribute key value =
      ".addAttribute(" ++ key ++ ", " ++ (if t.isBacklink value then value else t.thunk value) ++ ")\n" :=
  rfl

/-- A backlink for a key. -/
def backlinkCall (t : Target) (key : String) : String := t.backlinkOpen ++ key ++ ")"

/-- The call that stops with a message. -/
def stopCall : Target → String → String
  | python, message => "stop_with_fail(" ++ message ++ ")"
  | javaScript, message => "stopWithFail(" ++ message ++ ")"

/-- The call that logs a value. -/
def logCall (_ : Target) (value description : String) : String :=
  "log(" ++ value ++ ", " ++ description ++ ")"

/-- The call that falls back on a second value. -/
def otherwiseCall (t : Target) (value other : String) : String :=
  "otherwise(" ++ t.thunk value ++ ", " ++ t.thunk other ++ ")"

end Target

end RecordMapper
