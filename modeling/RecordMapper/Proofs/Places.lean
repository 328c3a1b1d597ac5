import Mathlib.Data.List.Sort
import RecordMapper.Proofs.ReachableBlocks

/-!
# Places in a graph

A block stands at the top level of a graph, or as a part of a block that does. Its place says by which steps it
is reached and which blocks it is inside of. All places have one order, that of their addresses
(`inPreorder_iff`), and a walk visits them in this order, each once, in a state that the blocks around a place
decide (`walkGraph_eq`).
-/

namespace RecordMapper.Proofs.Places
open RecordMapper.Block RecordMapper.Proofs.ReachableBlocks

/-! ## Places -/

/-- A block where it stands: the number of each step that leads to it, and the blocks that it is inside of, the
nearest first. -/
structure Place where
  address : List Nat
  around : List Block
  block : Block

/-- A place is one of a graph: at its top level, or of a part of a block at another place. -/
inductive StandsIn (g : Graph) : Place → Prop
  | top {i : Nat} {b : Block} (found : g.topLevel[i]? = some b) : StandsIn g ⟨[i], [], b⟩
  | part {place : Place} {i : Nat} {b : Block} (outer : StandsIn g place) (found : (parts place.block)[i]? = some b) :
    StandsIn g ⟨place.address ++ [i], place.block :: place.around, b⟩

/-- The places of a block and of all that is connected to it. -/
def placesFrom (address : List Nat) (around : List Block) (b : Block) : List Place :=
  ⟨address, around, b⟩ :: (parts b).zipIdx.attach.flatMap fun ⟨(p, i), _⟩ =>
    placesFrom (address ++ [i]) (b :: around) p
termination_by sizeOf b
decreasing_by exact sizeOf_parts (List.fst_mem_of_mem_zipIdx ‹_›)

/-- The places of a graph. -/
def places (g : Graph) : List Place := g.topLevel.zipIdx.flatMap fun (b, i) => placesFrom [i] [] b

/-- A list of the places of a graph, all of them, each once: a block comes before its parts, and parts with all
that is below them in order. -/
structure InPreorder (g : Graph) (ps : List Place) : Prop where
  members : ∀ place, place ∈ ps ↔ StandsIn g place
  ordered : ps.Pairwise fun p q => p.address < q.address

section

variable {address : List Nat} {around : List Block} {b : Block}

theorem placesFrom_eq (address : List Nat) (around : List Block) (b : Block) :
    placesFrom address around b = ⟨address, around, b⟩ ::
      (parts b).zipIdx.flatMap fun (p, i) => placesFrom (address ++ [i]) (b :: around) p := by
  rw [placesFrom, List.flatMap_def, List.flatMap_def]
  congr 2
  exact List.attach_map_val (f := fun part : Block × Nat => placesFrom (address ++ [part.2]) (b :: around) part.1)

/-- What holds of a place and passes from a place to the parts of its block holds of all places below it. -/
theorem forall_placesFrom {P : Place → Prop}
    (step : ∀ place i b, P place → (parts place.block)[i]? = some b →
      P ⟨place.address ++ [i], place.block :: place.around, b⟩)
    (start : P ⟨address, around, b⟩) :
    ∀ place ∈ placesFrom address around b, P place := by
  induction address, around, b using placesFrom.induct with
  | case1 address around b ih =>
    intro place inside
    rw [placesFrom_eq, List.mem_cons, List.mem_flatMap] at inside
    rcases inside with rfl | ⟨⟨p, i⟩, part, below⟩
    · exact start
    · exact ih p i part (step _ i p start (List.mk_mem_zipIdx_iff_getElem?.mp part)) place below

theorem standsIn_of_mem {g : Graph} {place : Place} (inside : place ∈ places g) : StandsIn g place := by
  obtain ⟨⟨b, i⟩, top, below⟩ := List.mem_flatMap.mp inside
  exact forall_placesFrom (fun _ _ _ outer found => .part outer found)
    (.top (List.mk_mem_zipIdx_iff_getElem?.mp top)) place below

theorem part_mem_placesFrom {place : Place} {i : Nat} {q : Block}
    (inside : place ∈ placesFrom address around b) (found : (parts place.block)[i]? = some q) :
    ⟨place.address ++ [i], place.block :: place.around, q⟩ ∈ placesFrom address around b := by
  induction address, around, b using placesFrom.induct with
  | case1 address around b ih =>
    rw [placesFrom_eq, List.mem_cons, List.mem_flatMap] at inside ⊢
    rcases inside with rfl | ⟨⟨p, j⟩, part, below⟩
    · have own : ∀ a r, ⟨a, r, q⟩ ∈ placesFrom a r q := fun a r => by simp [placesFrom_eq a r q]
      exact .inr ⟨(q, i), List.mk_mem_zipIdx_iff_getElem?.mpr found, own _ _⟩
    · exact .inr ⟨(p, j), part, ih p j part below⟩

theorem mem_of_standsIn {g : Graph} {place : Place} (stands : StandsIn g place) : place ∈ places g := by
  induction stands with
  | @top i b found =>
    exact List.mem_flatMap.mpr ⟨(b, i), List.mk_mem_zipIdx_iff_getElem?.mpr found, by simp [placesFrom_eq [i] [] b]⟩
  | part _ found ih =>
    obtain ⟨top, member, below⟩ := List.mem_flatMap.mp ih
    exact List.mem_flatMap.mpr ⟨top, member, part_mem_placesFrom below found⟩

/-! ## Their order -/

theorem prefix_of_mem :
    ∀ place ∈ placesFrom address around b, address <+: place.address :=
  forall_placesFrom (fun _ _ _ below _ => below.trans (List.prefix_append _ _)) (List.prefix_refl _)

/-- Places below different steps from one address are ordered as the steps are. -/
theorem lt_of_prefixes {first second : List Nat} {i j : Nat} (apart : i < j)
    (below : address ++ [i] <+: first) (below' : address ++ [j] <+: second) : first < second := by
  obtain ⟨rest, rfl⟩ := below
  obtain ⟨rest', rfl⟩ := below'
  rw [List.append_assoc, List.append_assoc]
  exact List.append_left_lt (List.cons_lt_cons_iff.mpr (.inl apart))

theorem lt_of_below {deeper : List Nat} {i : Nat} (below : address ++ [i] <+: deeper) : address < deeper := by
  obtain ⟨rest, rfl⟩ := below
  have longer : address ++ [] < address ++ ([i] ++ rest) := List.append_left_lt (List.nil_lt_cons i rest)
  rwa [List.append_nil, ← List.append_assoc] at longer

theorem pairwise_zipIdx {α : Type} (xs : List α) : xs.zipIdx.Pairwise fun x y => x.2 < y.2 := by
  have increasing : (xs.zipIdx.map Prod.snd).Pairwise (· < ·) := by
    rw [List.zipIdx_map_snd]
    exact List.pairwise_lt_range' 1
  exact List.pairwise_map.mp increasing

theorem pairwise_flatMap_zipIdx {bs : List Block}
    (each : ∀ b i, (b, i) ∈ bs.zipIdx →
      (placesFrom (address ++ [i]) around b).Pairwise fun p q => p.address < q.address) :
    (bs.zipIdx.flatMap fun (b, i) => placesFrom (address ++ [i]) around b).Pairwise
      fun p q => p.address < q.address := by
  refine List.pairwise_flatMap.mpr ⟨fun entry inside => each entry.1 entry.2 inside, ?_⟩
  refine (pairwise_zipIdx bs).imp fun apart p below q below' => ?_
  exact lt_of_prefixes apart (prefix_of_mem p below) (prefix_of_mem q below')

theorem pairwise_placesFrom (address : List Nat) (around : List Block) (b : Block) :
    (placesFrom address around b).Pairwise fun p q => p.address < q.address := by
  induction address, around, b using placesFrom.induct with
  | case1 address around b ih =>
    rw [placesFrom_eq, List.pairwise_cons]
    refine ⟨fun place inside => ?_, pairwise_flatMap_zipIdx ih⟩
    obtain ⟨⟨p, i⟩, _, below⟩ := List.mem_flatMap.mp inside
    exact lt_of_below (prefix_of_mem place below)

end

theorem inPreorder_places (g : Graph) : InPreorder g (places g) :=
  ⟨fun _ => ⟨standsIn_of_mem, mem_of_standsIn⟩,
    pairwise_flatMap_zipIdx fun b i _ => pairwise_placesFrom ([] ++ [i]) [] b⟩

/-- There is one list of the places of a graph in their order. -/
theorem inPreorder_iff (g : Graph) (ps : List Place) : InPreorder g ps ↔ ps = places g := by
  have irreflexive : Std.Irrefl fun p q : Place => p.address < q.address :=
    ⟨fun p => List.lt_irrefl p.address⟩
  have antisymmetric : Std.Antisymm fun p q : Place => p.address < q.address :=
    ⟨fun _ _ before after => absurd after (List.lt_asymm before)⟩
  refine ⟨fun listed => ?_, fun same => same ▸ inPreorder_places g⟩
  refine listed.ordered.eq_of_mem_iff (inPreorder_places g).ordered fun place => ?_
  rw [listed.members, (inPreorder_places g).members]

/-! ## Walks -/

section

variable {σ α : Type} (enter : σ → Block → σ) (own : σ → Block → List α)

/-- The state of a walk inside some blocks. -/
def stateIn (s : σ) (around : List Block) : σ := around.foldr (fun b s => enter s b) s

theorem flatMap_zipIdx {β : Type} (f : Block → List β) (bs : List Block) :
    bs.flatMap f = bs.zipIdx.flatMap fun entry => f entry.1 := by
  conv_lhs => rw [← List.zipIdx_map_fst 0 bs, List.flatMap_map]

theorem walk_eq_placesFrom (s : σ) (address : List Nat) (around : List Block) (b : Block) :
    walk enter own (stateIn enter s around) b =
      (placesFrom address around b).flatMap fun place => own (stateIn enter s place.around) place.block := by
  induction address, around, b using placesFrom.induct with
  | case1 address around b ih =>
    rw [walk_eq, placesFrom_eq, List.flatMap_cons, List.flatMap_assoc, flatMap_zipIdx]
    exact congrArg _ (List.flatMap_congr fun entry inside => ih entry.1 entry.2 inside)

/-- A walk of a graph collects what the blocks add, place by place. -/
theorem walkGraph_eq (s : σ) (g : Graph) :
    walkGraph enter own s g =
      (places g).flatMap fun place => own (stateIn enter s place.around) place.block := by
  rw [walkGraph, walkAll_eq_flatMap, places, List.flatMap_assoc, flatMap_zipIdx]
  exact List.flatMap_congr fun entry _ => walk_eq_placesFrom enter own s [entry.2] [] entry.1

end

end RecordMapper.Proofs.Places
