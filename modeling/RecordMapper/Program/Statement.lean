import RecordMapper.Program.Target

/-!
# Statements of a program

A record design is built by a chain of steps, each on a line of its own. The steps of an attribute
or a profile stand in the chain of the record that it belongs to, one level in, or on their own if
it belongs to none.
-/

namespace RecordMapper.Program

/-- How a program is written: its language, the width of a level, and whether blocks have
comments. -/
structure Style where
  target : Target
  width : Nat
  comments : Bool

/-- The blanks of one level. -/
def Style.level (s : Style) : String := String.ofList (List.replicate s.width ' ')

theorem Style.eq_of_mem_level {s : Style} {c : Char} (inside : c ∈ s.level.toList) : c = ' ' := by
  rw [level, String.toList_ofList] at inside
  exact List.eq_of_mem_replicate inside

/-- A step in building a design: a comment, or a call with the code of what it is given. -/
inductive Step where
  | comment (text : String)
  | setId (id : String)
  | setSkip (condition : String)
  | add (key value : String)

/-- The text of a step, which ends with a line feed. -/
def Step.render (t : Target) : Step → String
  | comment text => t.comment text
  | setId id => t.setId id
  | setSkip condition => t.setSkip condition
  | add key value => t.addAttribute key value

/-- A comment, if comments are wanted. -/
def Style.comment (s : Style) (text : String) : List Step :=
  if s.comments then [.comment text] else []

/-- A statement: steps on their own, or a design with what stands above it and its steps. -/
inductive Statement where
  | steps (own : List Step)
  | design (heading own : List Step)

/-- The text of steps. -/
def renderSteps (t : Target) (steps : List Step) : String :=
  String.join (steps.map (Step.render t))

/-- The text of a statement. -/
def Statement.render (s : Style) : Statement → String
  | .steps own => renderSteps s.target own
  | .design heading own =>
    renderSteps s.target heading ++ s.target.designOpen ++
      String.join (own.map fun step => indent (step.render s.target) s.level) ++
      s.target.designClose

end RecordMapper.Program
