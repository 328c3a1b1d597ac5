import RecordMapper.Program.Basic
import RecordMapper.Proofs.Origins

/-!
# Slots that lowering leaves unread

Code and evaluators are both refused if a statement stands where a value is wanted. For code that is the
only fault of a value (`isExpression_iff`), and every value that is lowered is free of it
(`placed_of_compile`). But an attribute whose key or value says nothing is left out of a design before
its other slot is read, while a program is refused for what stands there: among graphs of records that
lower, those that have no program are the ones in which such a slot holds a misplaced statement
(`program_exists_iff`).
-/

namespace RecordMapper.Proofs.UnreadSlots
open RecordMapper.Program RecordMapper.Block RecordMapper.Proofs.Runs

/-! ## Values in their places -/

mutual

/-- A value in whose slots, and in those of the values there, no statement stands. -/
def isPlaced : Block → Bool
  | .record _ _ _ _ => false
  | .attr _ _ _ => false
  | .profile _ _ _ => false
  | .fieldQuery _ _ _ => true
  | .slotQuery _ _ query => isPlacedSlot query
  | .stop _ message => isPlacedSlot message
  | .log _ _ value => isPlacedSlot value
  | .otherwise _ value other => isPlacedSlot value && isPlacedSlot other
  | .backlink _ key => isPlacedSlot key
  | .reference _ _ => true
  | .literal _ _ => true
  | .list _ items => isPlacedAll items

/-- A slot that holds such a value, or nothing. -/
def isPlacedSlot : Option Block → Bool
  | none => true
  | some b => isPlaced b

/-- Blocks that are all such values. -/
def isPlacedAll : List Block → Bool
  | [] => true
  | b :: rest => isPlaced b && isPlacedAll rest

end

/-- A block comes to an expression. -/
def IsExpression (came : GraphResult Fragment) : Prop := ∃ code order, came = .ok (.expression code order)

/-- There is a result. -/
def Succeeds {α : Type} (came : GraphResult α) : Prop := ∃ a, came = .ok a

section

variable {α β : Type}

theorem error_of_not_succeeds {came : GraphResult α} (fails : ¬ Succeeds came) :
    ∃ e, came = .error e := by
  cases came with
  | ok a => exact absurd ⟨a, rfl⟩ fails
  | error e => exact ⟨e, rfl⟩

theorem succeeds_bind_iff {came : GraphResult α} {next : α → GraphResult β} :
    Succeeds (came >>= next) ↔ ∃ a, came = .ok a ∧ Succeeds (next a) := by
  constructor
  · rintro ⟨b, both⟩
    obtain ⟨a, first, second⟩ := bind_eq_ok both
    exact ⟨a, first, b, second⟩
  · rintro ⟨a, rfl, b, second⟩
    exact ⟨b, second⟩

theorem succeeds_bind_ok_iff {came : GraphResult α} (f : α → β) :
    Succeeds (came >>= fun a => .ok (f a)) ↔ Succeeds came := by
  rw [succeeds_bind_iff]
  exact exists_congr fun a => and_iff_left ⟨f a, rfl⟩

theorem isExpression_bind_iff {came : GraphResult α} {next : α → GraphResult Fragment} :
    IsExpression (came >>= next) ↔ ∃ a, came = .ok a ∧ IsExpression (next a) := by
  constructor
  · rintro ⟨code, order, both⟩
    obtain ⟨a, first, second⟩ := bind_eq_ok both
    exact ⟨a, first, code, order, second⟩
  · rintro ⟨a, rfl, code, order, second⟩
    exact ⟨code, order, second⟩

theorem isExpression_bind_ok_iff {came : GraphResult α} (code : α → String) (order : Order) :
    IsExpression (came >>= fun a => .ok (.expression (code a) order)) ↔ Succeeds came := by
  rw [isExpression_bind_iff]
  exact exists_congr fun a => and_iff_left ⟨code a, order, rfl⟩

theorem isExpression_ok (code : String) (order : Order) : IsExpression (.ok (.expression code order)) :=
  ⟨code, order, rfl⟩

end

theorem valueCode_succeeds_iff {b : Block} {came : GraphResult Fragment} :
    Succeeds (came >>= valueCode b) ↔ IsExpression came := by
  rw [succeeds_bind_iff]
  constructor
  · rintro ⟨f, rfl, code, placed⟩
    cases f with
    | statement st => cases placed
    | expression bare order => exact isExpression_ok bare order
  · rintro ⟨code, order, rfl⟩
    exact ⟨_, rfl, _, rfl⟩

/-! ## Code -/

mutual

/-- A block comes to an expression exactly if it is a value with nothing misplaced in it. -/
theorem isExpression_iff (s : Style) : ∀ b : Block, IsExpression (fragment s b) ↔ isPlaced b = true
  | .record _ _ _ _ => by
    rw [fragment, isPlaced]
    refine iff_of_false ?_ Bool.false_ne_true
    rintro ⟨code, order, came⟩
    split at came
    · cases came
    · obtain ⟨_, _, came⟩ := bind_eq_ok came
      obtain ⟨_, _, came⟩ := bind_eq_ok came
      obtain ⟨_, _, came⟩ := bind_eq_ok came
      cases came
  | .attr _ _ _ => by
    rw [fragment, isPlaced]
    refine iff_of_false ?_ Bool.false_ne_true
    rintro ⟨code, order, came⟩
    obtain ⟨_, _, came⟩ := bind_eq_ok came
    obtain ⟨_, _, came⟩ := bind_eq_ok came
    cases came
  | .profile _ _ _ => by
    rw [fragment, isPlaced]
    refine iff_of_false ?_ Bool.false_ne_true
    rintro ⟨code, order, came⟩
    split at came
    · cases came
    · obtain ⟨_, _, came⟩ := bind_eq_ok came
      cases came
  | .fieldQuery _ _ _ => by
    rw [fragment, isPlaced]
    exact iff_of_true (isExpression_ok _ _) rfl
  | .slotQuery _ _ query => by
    rw [fragment, isPlaced, isExpression_bind_ok_iff, slotCode_succeeds_iff s query]
  | .stop _ message => by
    rw [fragment, isPlaced, isExpression_bind_ok_iff, slotCode_succeeds_iff s message]
  | .log _ _ value => by
    rw [fragment, isPlaced, isExpression_bind_ok_iff, slotCode_succeeds_iff s value]
  | .otherwise _ value other => by
    rw [fragment, isPlaced, isExpression_bind_iff, Bool.and_eq_true, ← slotCode_succeeds_iff s value,
      ← slotCode_succeeds_iff s other]
    simp only [isExpression_bind_ok_iff]
    exact exists_and_right
  | .backlink _ key => by
    rw [fragment, isPlaced, isExpression_bind_ok_iff, slotCode_succeeds_iff s key]
  | .reference _ _ => by
    rw [fragment, isPlaced]
    exact iff_of_true (isExpression_ok _ _) rfl
  | .literal _ _ => by
    rw [fragment, isPlaced]
    exact iff_of_true (isExpression_ok _ _) rfl
  | .list _ items => by
    rw [fragment, isPlaced, isExpression_bind_ok_iff, itemCodes_succeeds_iff s items]

theorem slotCode_succeeds_iff (s : Style) : ∀ slot : Option Block,
    Succeeds (slotCode s slot) ↔ isPlacedSlot slot = true
  | none => by
    rw [slotCode, isPlacedSlot]
    exact iff_of_true ⟨_, rfl⟩ rfl
  | some b => by
    rw [slotCode, isPlacedSlot, ← isExpression_iff s b]
    exact valueCode_succeeds_iff

theorem itemCodes_succeeds_iff (s : Style) : ∀ items : List Block,
    Succeeds (itemCodes s items) ↔ isPlacedAll items = true
  | [] => by
    rw [itemCodes, isPlacedAll]
    exact iff_of_true ⟨_, rfl⟩ rfl
  | b :: rest => by
    rw [itemCodes, isPlacedAll, Bool.and_eq_true, ← isExpression_iff s b, ← itemCodes_succeeds_iff s rest,
      succeeds_bind_iff]
    constructor
    · rintro ⟨f, came, codes, listed⟩
      cases f with
      | statement st => cases listed
      | expression code order =>
        obtain ⟨more, later, _⟩ := bind_eq_ok listed
        exact ⟨⟨code, order, came⟩, more, later⟩
    · rintro ⟨⟨code, order, came⟩, more, later⟩
      refine ⟨_, came, ?_⟩
      dsimp only
      rw [later]
      exact ⟨_, rfl⟩

end

/-! ## Evaluators -/

mutual

/-- A value that is lowered has nothing misplaced in it. -/
theorem placed_of_compile : ∀ (b : Block) {e : Option Evaluator}, compile b = .ok e → isPlaced b = true
  | .record _ _ _ _, _, came | .attr _ _ _, _, came | .profile _ _ _, _, came | .backlink _ _, _, came => by
    rw [compile] at came
    cases came
  | .fieldQuery _ _ _, _, _ | .reference _ _, _, _ | .literal _ _, _, _ => by rw [isPlaced]
  | .slotQuery _ _ query, _, came => by
    rw [compile] at came
    obtain ⟨_, slot, _⟩ := bind_eq_ok came
    rw [isPlaced, placed_of_compileSlot query slot]
  | .stop _ message, _, came => by
    rw [compile] at came
    obtain ⟨_, slot, _⟩ := bind_eq_ok came
    rw [isPlaced, placed_of_compileSlot message slot]
  | .log _ _ value, _, came => by
    rw [compile] at came
    obtain ⟨_, slot, _⟩ := bind_eq_ok came
    rw [isPlaced, placed_of_compileSlot value slot]
  | .otherwise _ value other, _, came => by
    rw [compile] at came
    obtain ⟨_, slot, came⟩ := bind_eq_ok came
    obtain ⟨_, otherSlot, _⟩ := bind_eq_ok came
    rw [isPlaced, placed_of_compileSlot value slot, placed_of_compileSlot other otherSlot, Bool.and_self]
  | .list _ items, _, came => by
    rw [compile] at came
    obtain ⟨_, all, _⟩ := bind_eq_ok came
    rw [isPlaced, placed_of_compileAll items all]

theorem placed_of_compileSlot : ∀ (slot : Option Block) {e : Option Evaluator}, compileSlot slot = .ok e →
    isPlacedSlot slot = true
  | none, _, _ => by rw [isPlacedSlot]
  | some b, _, came => by
    rw [compileSlot] at came
    rw [isPlacedSlot, placed_of_compile b came]

theorem placed_of_compileAll : ∀ (items : List Block) {es : List Evaluator}, compileAll items = .ok es →
    isPlacedAll items = true
  | [], _, _ => by rw [isPlacedAll]
  | b :: rest, _, came => by
    rw [compileAll] at came
    obtain ⟨_, first, came⟩ := bind_eq_ok came
    obtain ⟨_, later, _⟩ := bind_eq_ok came
    rw [isPlacedAll, placed_of_compile b first, placed_of_compileAll rest later, Bool.and_self]

end

theorem placed_of_empty {slot : Option Block} (empty : isEmptySlot slot = true) : isPlacedSlot slot = true := by
  cases slot with
  | none => rw [isPlacedSlot]
  | some b =>
    cases b with
    | literal id value => rw [isPlacedSlot, isPlaced]
    | _ => cases empty

theorem placed_of_staticText {b : Block} {text : Option String} (static : staticText b = .ok text) :
    isPlaced b = true := by
  obtain ⟨e, came, _⟩ := bind_eq_ok static
  exact placed_of_compile b came

theorem placed_of_staticSlot {slot : Option Block} {text : Option String} (static : staticSlot slot = .ok text) :
    isPlacedSlot slot = true := by
  cases slot with
  | none => rw [isPlacedSlot]
  | some b =>
    rw [staticSlot] at static
    split_ifs at static with empty
    · exact placed_of_empty empty
    · rw [isPlacedSlot, placed_of_staticText static]

theorem placed_of_source {b : Block} {registered : Option Source} (came : source b = .ok registered) :
    isPlaced b = true := by
  by_cases link : ∃ id key, b = .backlink id key
  · obtain ⟨id, key, rfl⟩ := link
    rw [source] at came
    obtain ⟨_, static, _⟩ := bind_eq_ok came
    rw [isPlaced, placed_of_staticSlot static]
  · rw [source.eq_2 b fun id key same => link ⟨id, key, same⟩] at came
    obtain ⟨_, compiled, _⟩ := bind_eq_ok came
    exact placed_of_compile b compiled

theorem placed_of_addBlock {d d' : Design} {key : String} {b : Block} (came : d.addBlock key b = .ok d') :
    isPlaced b = true := by
  obtain ⟨_, registered, _⟩ := bind_eq_ok came
  exact placed_of_source registered

/-! ## Statements -/

/-- An attribute that is left out of a design before its other slot is read, which holds something
misplaced: the value behind a key that says nothing, or the key of a value that says nothing. -/
def Hides : Block → Prop
  | .attr _ key value =>
    (staticSlot key = .ok none ∧ isPlacedSlot value = false) ∨ (isEmptySlot value = true ∧ isPlacedSlot key = false)
  | _ => False

/-- A statement comes to steps. -/
def ComesToSteps (s : Style) (b : Block) : Prop := ∃ steps, fragment s b = .ok (.statement (.steps steps))

theorem attr_comesToSteps_iff (s : Style) (id : String) (key value : Option Block) :
    ComesToSteps s (.attr id key value) ↔ isPlacedSlot key = true ∧ isPlacedSlot value = true := by
  rw [ComesToSteps, fragment, ← slotCode_succeeds_iff s key, ← slotCode_succeeds_iff s value]
  constructor
  · rintro ⟨steps, came⟩
    obtain ⟨keyCode, keyCame, came⟩ := bind_eq_ok came
    obtain ⟨valueCode, valueCame, _⟩ := bind_eq_ok came
    exact ⟨⟨keyCode, keyCame⟩, valueCode, valueCame⟩
  · rintro ⟨⟨keyCode, keyCame⟩, valueCode, valueCame⟩
    rw [keyCame, valueCame]
    exact ⟨_, rfl⟩

section

variable {d d' : Design}

/-- The value of an attribute is left unread only behind a key that says nothing, and its key only if the
value is empty. -/
theorem read_of_addAttr {key value : Option Block} (came : d.addAttr key value = .ok d') :
    (staticSlot key = .ok none ∨ isPlacedSlot value = true) ∧
      (isEmptySlot value = true ∨ isPlacedSlot key = true) := by
  cases key with
  | none => exact ⟨.inl rfl, .inr (placed_of_empty rfl)⟩
  | some k =>
    cases value with
    | none => exact ⟨.inr (placed_of_empty rfl), .inl rfl⟩
    | some v =>
      rw [Design.addAttr] at came
      by_cases keyEmpty : isEmptySlot (some k) = true
      · exact ⟨.inl (by rw [staticSlot, if_pos keyEmpty]), .inr (placed_of_empty keyEmpty)⟩
      · by_cases valueEmpty : isEmptySlot (some v) = true
        · exact ⟨.inr (placed_of_empty valueEmpty), .inl valueEmpty⟩
        · rw [if_neg (by simp [keyEmpty, valueEmpty])] at came
          obtain ⟨text, static, came⟩ := bind_eq_ok came
          refine ⟨?_, .inr (by rw [isPlacedSlot, placed_of_staticText static])⟩
          cases text with
          | none => exact .inl (by rw [staticSlot, if_neg keyEmpty, static])
          | some text => exact .inr (by rw [isPlacedSlot, placed_of_addBlock came])

/-- An attribute that is lowered holds nothing misplaced unless it hides it. -/
theorem placed_iff_of_addAttr {id : String} {key value : Option Block} (came : d.addAttr key value = .ok d') :
    isPlacedSlot key = true ∧ isPlacedSlot value = true ↔ ¬ Hides (.attr id key value) := by
  obtain ⟨valueRead, keyRead⟩ := read_of_addAttr came
  rw [Hides, ← Bool.not_eq_true, ← Bool.not_eq_true]
  tauto

theorem inputsSteps_of_addInputs (s : Style) {p : Descriptor} {inputs : List (String × Block)}
    (came : Design.addInputs p d inputs = .ok d') : Succeeds (inputsSteps s p inputs) := by
  induction inputs generalizing d with
  | nil => exact ⟨_, rfl⟩
  | cons input rest ih =>
    obtain ⟨name, b⟩ := input
    rw [Design.addInputs] at came
    rw [inputsSteps]
    cases property : p.pidFor? name with
    | none =>
      rw [property] at came
      exact ih came
    | some pid =>
      rw [property] at came
      have both : isPlaced b = true ∧ Succeeds (inputsSteps s p rest) := by
        dsimp only at came
        split_ifs at came with empty
        · have placed := placed_of_empty empty
          rw [isPlacedSlot] at placed
          exact ⟨placed, ih came⟩
        · obtain ⟨_, added, came⟩ := bind_eq_ok came
          exact ⟨placed_of_addBlock added, ih came⟩
      obtain ⟨code, order, came⟩ := (isExpression_iff s b).mpr both.1
      obtain ⟨more, later⟩ := both.2
      dsimp only
      rw [came, later]
      exact ⟨_, rfl⟩

/-- A statement that is lowered comes to steps unless it hides something misplaced. -/
theorem comesToSteps_iff (s : Style) {b : Block} (came : d.addStatement b = .ok d') :
    ComesToSteps s b ↔ ¬ Hides b := by
  cases b with
  | attr id key value => rw [attr_comesToSteps_iff, placed_iff_of_addAttr came]
  | profile id descriptor inputs =>
    refine iff_of_true ?_ not_false
    rw [Design.addStatement] at came
    rw [ComesToSteps, fragment]
    cases complete : contract descriptor with
    | error gap =>
      rw [complete] at came
      cases came
    | ok found =>
      rw [complete] at came
      obtain ⟨steps, listed⟩ := inputsSteps_of_addInputs s came
      dsimp only
      rw [listed]
      exact ⟨_, rfl⟩
  | _ => cases came

end

theorem bodySteps_succeeds_iff (s : Style) (outer : String) (body : List Block) :
    Succeeds (bodySteps s outer body) ↔ ∀ b ∈ body, ComesToSteps s b := by
  induction body with
  | nil => exact iff_of_true ⟨_, rfl⟩ (List.forall_mem_nil _)
  | cons b rest ih =>
    rw [bodySteps, List.forall_mem_cons, ← ih, succeeds_bind_iff]
    constructor
    · rintro ⟨f, came, steps, listed⟩
      cases f with
      | expression code order => cases listed
      | statement st =>
        cases st with
        | design heading own => cases listed
        | steps own =>
          obtain ⟨more, later, _⟩ := bind_eq_ok listed
          exact ⟨⟨own, came⟩, more, later⟩
    · rintro ⟨⟨own, came⟩, more, later⟩
      refine ⟨_, came, ?_⟩
      dsimp only
      rw [later]
      exact ⟨_, rfl⟩

/-! ## Records and graphs -/

/-- The statements of a record. -/
def statements : Block → List Block
  | .record _ _ _ body => body
  | _ => []

/-- A record comes to code exactly if none of its statements is a record, its slots have code, and its
statements come to steps. -/
theorem record_code_iff (s : Style) (id : String) (localId : Option Block) (skip : Option (Option Block))
    (body : List Block) : Succeeds (fragment s (.record id localId skip body)) ↔
      nestedRecord? id body = none ∧ Succeeds (slotCode s localId) ∧ Succeeds (slotCode s skip.join) ∧
        ∀ b ∈ body, ComesToSteps s b := by
  rw [fragment, SameDrops.skipCode_eq, ← bodySteps_succeeds_iff s id body]
  cases nestedRecord? id body with
  | some e =>
    refine iff_of_false ?_ fun ⟨absent, _⟩ => nomatch absent
    rintro ⟨_, came⟩
    cases came
  | none =>
    constructor
    · rintro ⟨_, came⟩
      obtain ⟨idCode, idCame, came⟩ := bind_eq_ok came
      obtain ⟨skipText, skipCame, came⟩ := bind_eq_ok came
      obtain ⟨steps, listed, _⟩ := bind_eq_ok came
      exact ⟨rfl, ⟨idCode, idCame⟩, ⟨skipText, skipCame⟩, steps, listed⟩
    · rintro ⟨_, ⟨idCode, idCame⟩, ⟨skipText, skipCame⟩, steps, listed⟩
      dsimp only
      rw [idCame, skipCame, listed]
      exact ⟨_, rfl⟩

/-- A record that is lowered comes to code unless one of its statements hides something misplaced. -/
theorem record_succeeds_iff (s : Style) {id : String} {localId : Option Block} {skip : Option (Option Block)}
    {body : List Block} {d : Design} (lowered : Design.ofRecord id localId skip body = .ok d) :
    Succeeds (fragment s (.record id localId skip body)) ↔ ∀ b ∈ body, ¬ Hides b := by
  obtain ⟨_, _, nested, idCompiled, skipCompiled, lowered⟩ := SameDrops.lowered_record lowered
  have idCode := (slotCode_succeeds_iff s localId).mpr (placed_of_compileSlot localId idCompiled)
  have skipText := (slotCode_succeeds_iff s skip.join).mpr (placed_of_compileSlot skip.join skipCompiled)
  rw [record_code_iff, and_iff_right nested, and_iff_right idCode, and_iff_right skipText]
  refine forall₂_congr fun b inside => ?_
  obtain ⟨_, _, came⟩ := step_of_foldlM lowered b inside
  exact comesToSteps_iff s came

theorem chainCode_succeeds_iff (s : Style) (chain : List Block) :
    Succeeds (chainCode s chain) ↔ ∀ b ∈ chain, Succeeds (fragment s b) := by
  induction chain with
  | nil => exact iff_of_true ⟨_, rfl⟩ (List.forall_mem_nil _)
  | cons b rest ih =>
    rw [chainCode, List.forall_mem_cons, ← ih, succeeds_bind_iff]
    simp only [succeeds_bind_ok_iff]
    exact exists_and_right

theorem mapM_succeeds_iff {α β : Type} {f : α → GraphResult β} {xs : List α} :
    Succeeds (xs.mapM f) ↔ ∀ x ∈ xs, Succeeds (f x) := by
  induction xs with
  | nil => exact iff_of_true ⟨_, rfl⟩ (List.forall_mem_nil _)
  | cons x rest ih =>
    rw [List.mapM_cons, List.forall_mem_cons, ← ih, succeeds_bind_iff]
    refine Iff.trans (exists_congr fun a => and_congr_right fun _ => ?_) exists_and_right
    exact @succeeds_bind_ok_iff _ _ (rest.mapM f) (a :: ·)

/-- A graph has a program exactly if each of its top-level blocks comes to something. -/
theorem generate_succeeds_iff (s : Style) (g : Graph) :
    Succeeds (generate s g) ↔ ∀ b ∈ g.topLevel, Succeeds (fragment s b) := by
  rw [generate, succeeds_bind_ok_iff, graphCode, succeeds_bind_ok_iff, mapM_succeeds_iff, Graph.topLevel]
  simp only [chainCode_succeeds_iff, List.mem_flatten]
  exact ⟨fun all b ⟨chain, inside, member⟩ => all chain inside b member,
    fun all chain inside b member => all b ⟨chain, inside, member⟩⟩

/-- A graph of records that is lowered has a program, in either language and however it is written, exactly
if no attribute of its records hides something misplaced. -/
theorem program_exists_iff {g : Graph} {designs : List Design} (records : ∀ b ∈ g.topLevel, b.isRecord = true)
    (lowered : g.lower = .ok designs) (s : Style) :
    (∃ code, generate s g = .ok code) ↔ ∀ b ∈ g.topLevel, ∀ a ∈ statements b, ¬ Hides a := by
  refine (generate_succeeds_iff s g).trans (forall₂_congr fun b inside => ?_)
  cases b with
  | record id localId skip body =>
    obtain ⟨d, _, _, _, _, _, same, own⟩ := Origins.design_of_record lowered inside rfl
    cases same
    exact record_succeeds_iff s own
  | _ => cases records _ inside

/-- A record with an attribute that has no key. -/
def keyless (value : Block) : Graph :=
  ⟨[[.record "r" (some (.literal "i" (.text "X"))) none [.attr "a" none (some value)]]]⟩

/-- Behind no key, a text is left out of design and program. -/
theorem keyless_text_written :
    ∃ designs, (∀ b ∈ (keyless (.literal "v" (.text "MIT"))).topLevel, b.isRecord = true) ∧
      (keyless (.literal "v" (.text "MIT"))).lower = .ok designs ∧
      ∃ code, generate ⟨.python, 2, true⟩ (keyless (.literal "v" (.text "MIT"))) = .ok code := by
  have records : ∀ b ∈ (keyless (.literal "v" (.text "MIT"))).topLevel, b.isRecord = true :=
    List.forall_mem_singleton.mpr rfl
  refine ⟨_, records, rfl, (program_exists_iff records rfl ⟨.python, 2, true⟩).mpr ?_⟩
  refine List.forall_mem_singleton.mpr (List.forall_mem_singleton.mpr ?_)
  rintro (⟨_, misplaced⟩ | ⟨empty, _⟩)
  · exact absurd misplaced (by decide)
  · exact absurd empty (by decide)

/-- Behind no key, a statement in the place of the value is left out of the design, and there is no program. -/
theorem keyless_statement_refused :
    (∀ b ∈ (keyless (.attr "v" none none)).topLevel, b.isRecord = true) ∧
      (keyless (.attr "v" none none)).lower = .ok [⟨"r", some (Evaluator.const (.str "X")), none, none, [], []⟩] ∧
      generate ⟨.python, 2, true⟩ (keyless (.attr "v" none none)) =
        .error (.malformed (.statementInValueSlot "v" .attr)) ∧
      generate ⟨.javaScript, 2, true⟩ (keyless (.attr "v" none none)) =
        .error (.malformed (.statementInValueSlot "v" .attr)) :=
  ⟨List.forall_mem_singleton.mpr rfl, rfl, rfl, rfl⟩

end RecordMapper.Proofs.UnreadSlots
