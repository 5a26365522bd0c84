import RttOpcua.Lib.OrdMap
import Mathlib.Data.List.Basic
import Mathlib.Data.List.Nodup
import Mathlib.Data.List.Perm.Subperm
import Mathlib.Data.Fintype.Card
import Mathlib.Data.Set.Finite.Basic
import Mathlib.Logic.Relation

/-!
# Kahn's algorithm

A topological order of a finite graph that is given by the list of dependencies of each node: count the
dependencies, take the least node that has none left, and release those that depend on it.

The order that the algorithm computes is closed (`Closed`): what a node depends on, directly or not, stands before
it. No loop is taken more often than there are nodes (`order_run`), so the bound on the rounds decides nothing.
-/

namespace RttOpcua.Lib

open OrdSet

variable {α : Type} [Ord α] [DecidableEq α] [Std.TransOrd α] [Std.LawfulEqOrd α]

namespace Kahn

/-! ## The algorithm -/

/-- Where the loop stands: the dependencies that each node still waits for, the nodes that wait for none, and the
order so far. -/
structure State (α : Type) [Ord α] where
  indegree : OrdMap α Nat
  ready : OrdSet α
  order : List α

variable (nodes : OrdMap α (List α))

/-- The nodes that depend on each node. -/
def dependents : OrdMap α (List α) :=
  nodes.entries.foldl
    (fun m e => e.2.foldl (fun m d => m.insertOrAssign d (((m.find? d).getD []) ++ [e.1])) m) ∅

/-- The sorted list of the nodes that depend on `d`. -/
def dependentsOf (d : α) : List α := (((dependents nodes).find? d).getD []).mergeSort fun a b => (compare a b).isLE

def initial : State α where
  indegree := nodes.entries.foldl (fun m e => m.emplace e.1 e.2.length) ∅
  ready := insertAll ∅ ((nodes.entries.filter fun e => e.2.length = 0).map Prod.fst)
  order := []

/-- One dependency of `n` is done. -/
def release (k : State α) (n : α) : State α :=
  let count := ((k.indegree.find? n).getD 0) - 1
  { k with
    indegree := k.indegree.insertOrAssign n count
    ready := if count = 0 then insert k.ready n else k.ready }

/-- One round: the least node that is ready. -/
def round (k : State α) : Option (State α) :=
  match k.ready.entries with
  | [] => none
  | (n, _) :: _ =>
      some ((dependentsOf nodes n).foldl release { k with ready := k.ready.erase n, order := k.order ++ [n] })

/-- The loop, with a bound on the rounds. -/
def run : Nat → State α → State α
  | 0, k => k
  | fuel + 1, k =>
      match round nodes k with
      | none => k
      | some k' => run fuel k'

def result : State α := run nodes (nodes.size + 1) (initial nodes)

/-! ## Closed orders -/

/-- What each node depends on stands before it. -/
def Closed (dependencies : α → List α) (order : List α) : Prop :=
  ∀ before n after, order = before ++ n :: after → ∀ d ∈ dependencies n, d ∈ before

section Closed

variable {dependencies : α → List α} {order : List α}

omit [Ord α] [DecidableEq α] [Std.TransOrd α] [Std.LawfulEqOrd α]

theorem Closed.nil : Closed dependencies [] := by
  intro before n after h
  simp at h

theorem Closed.mem (h : Closed dependencies order) {n : α} (hn : n ∈ order) : ∀ d ∈ dependencies n, d ∈ order := by
  obtain ⟨before, after, rfl⟩ := List.append_of_mem hn
  exact fun d hd => List.mem_append_left _ (h before n after rfl d hd)

omit dependencies order in
/-- What holds of each element and what stands before it, when one element is appended. -/
theorem forall_split_snoc {order : List α} {n : α} {P : List α → α → Prop}
    (h : ∀ before m after, order = before ++ m :: after → P before m) (hn : P order n) :
    ∀ before m after, order ++ [n] = before ++ m :: after → P before m := by
  intro before m after heq
  rcases List.eq_nil_or_concat after with rfl | ⟨after', z, rfl⟩
  · obtain ⟨rfl, hm⟩ := List.append_inj' heq rfl
    obtain rfl := (List.cons.inj hm).1
    exact hn
  · have heq' : order ++ [n] = (before ++ m :: after') ++ [z] := by simpa using heq
    exact h before m after' (List.append_inj' heq' rfl).1

theorem Closed.snoc (h : Closed dependencies order) {n : α} (hn : ∀ d ∈ dependencies n, d ∈ order) :
    Closed dependencies (order ++ [n]) :=
  forall_split_snoc h hn

/-- What a node depends on through others stands before it too. -/
theorem Closed.transitive (h : Closed dependencies order) {n d : α}
    (hd : Relation.TransGen (fun a b => b ∈ dependencies a) n d) :
    ∀ before after, order = before ++ n :: after → d ∈ before := by
  induction hd with
  | single hd => exact fun before after heq => h before n after heq _ hd
  | tail _ hlast ih =>
      intro before after heq
      obtain ⟨before', after', rfl⟩ := List.append_of_mem (ih before after heq)
      refine List.mem_append_left _ (h before' _ (after' ++ n :: after) ?_ _ hlast)
      rw [heq]
      simp

end Closed

/-! ## The dependents of a node -/

section Dependents

variable {nodes}

/-- How often `n` stands under `d` after its dependencies `ds`. -/
theorem find?_foldl_dependencies (n : α) (ds : List α) : ∀ (m : OrdMap α (List α)) (d : α),
    ((ds.foldl (fun m d => m.insertOrAssign d (((m.find? d).getD []) ++ [n])) m).find? d).getD [] =
      ((m.find? d).getD []) ++ List.replicate (ds.count d) n := by
  induction ds with
  | nil => simp
  | cons a rest ih =>
      intro m d
      rw [List.foldl_cons, ih, OrdMap.find?_insertOrAssign]
      by_cases had : d = a
      · subst had
        simp [List.count_cons_self, List.replicate_succ]
      · simp [had, List.count_cons_of_ne (Ne.symm had)]

theorem find?_foldl_entries (es : List (α × List α)) : ∀ (m : OrdMap α (List α)) (d : α),
    ((es.foldl (fun m e => e.2.foldl (fun m d => m.insertOrAssign d (((m.find? d).getD []) ++ [e.1])) m) m).find? d).getD [] =
      ((m.find? d).getD []) ++ es.flatMap fun e => List.replicate (e.2.count d) e.1 := by
  induction es with
  | nil => simp
  | cons e rest ih =>
      intro m d
      rw [List.foldl_cons, ih, find?_foldl_dependencies]
      simp

/-- A node stands among the dependents of `d` as often as `d` among its dependencies. -/
theorem count_dependentsOf (n d : α) :
    (dependentsOf nodes d).count n = ((nodes.find? n).getD []).count d := by
  have hperm : (dependentsOf nodes d).Perm (nodes.entries.flatMap fun e => List.replicate (e.2.count d) e.1) := by
    refine (List.mergeSort_perm _ _).trans ?_
    rw [dependents, find?_foldl_entries]
    simp
  rw [hperm.count_eq, List.count_flatMap]
  have hentries : ∀ es : List (α × List α), Ascending es →
      (es.map (List.count n ∘ fun e => List.replicate (e.2.count d) e.1)).sum = ((findEntry n es).getD []).count d := by
    intro es
    induction es with
    | nil => simp [findEntry]
    | cons e rest ih =>
        intro hes
        simp only [List.map_cons, List.sum_cons, Function.comp_apply, findEntry]
        rw [ih (List.pairwise_cons.1 hes).2]
        split
        · rename_i heq
          subst heq
          have hnone : findEntry e.1 rest = none := findEntry_none fun e' he' h => hes.ne_head he' h.symm
          simp [hnone]
        · rename_i hne
          simp [List.count_replicate, Ne.symm hne]
  exact hentries _ nodes.sorted

end Dependents

/-! ## The loop -/

def dependenciesOf (n : α) : List α := (nodes.find? n).getD []

/-- What holds between the rounds. -/
structure Inv (k : State α) : Prop where
  nodup : k.order.Nodup
  known : ∀ n ∈ k.order, nodes.contains n = true
  closed : Closed (dependenciesOf nodes) k.order
  indegree : ∀ n, nodes.contains n = true →
    k.indegree.find? n = some ((dependenciesOf nodes n).countP fun d => d ∉ k.order)
  ready : ∀ n, OrdMap.contains k.ready n = true ↔
    nodes.contains n = true ∧ n ∉ k.order ∧ ∀ d ∈ dependenciesOf nodes n, d ∈ k.order

/-- What holds within a round, while the nodes of `rest` still have to be released. -/
structure Releasing (rest : List α) (k : State α) : Prop where
  waiting : ∀ n ∈ rest, nodes.contains n = true ∧ n ∉ k.order
  indegree : ∀ n, nodes.contains n = true →
    k.indegree.find? n = some ((dependenciesOf nodes n).countP (fun d => d ∉ k.order) + rest.count n)
  ready : ∀ n, OrdMap.contains k.ready n = true ↔ nodes.contains n = true ∧ n ∉ k.order ∧
    (dependenciesOf nodes n).countP (fun d => d ∉ k.order) + rest.count n = 0

/-- Each node is the least of those that could stand in its place. -/
def Least (order : List α) : Prop :=
  ∀ before n after, order = before ++ n :: after → ∀ m, nodes.contains m = true → m ∉ before →
    (∀ d ∈ dependenciesOf nodes m, d ∈ before) → (compare n m).isLE = true

section Loop

variable {nodes} {k k' : State α}

omit [Ord α] [Std.TransOrd α] [Std.LawfulEqOrd α] in
theorem countP_snoc {order : List α} {n : α} (hn : n ∉ order) (ds : List α) :
    ds.countP (fun d => d ∉ order) = ds.countP (fun d => d ∉ order ++ [n]) + ds.count n := by
  induction ds with
  | nil => rfl
  | cons d rest ih =>
      rw [List.countP_cons, List.countP_cons, List.count_cons, ih]
      generalize rest.countP (fun d => d ∉ order ++ [n]) = x
      by_cases hd : d = n
      · subst hd
        simp [hn, Nat.add_assoc]
      · simp [hd, Nat.add_right_comm]

theorem release_releasing {n : α} {rest : List α} (h : Releasing nodes (n :: rest) k) :
    Releasing nodes rest (release k n) := by
  obtain ⟨hcontains, hnot⟩ := h.waiting n (by simp)
  have hcount := h.indegree n hcontains
  simp only [List.count_cons_self] at hcount
  refine ⟨fun m hm => h.waiting m (List.mem_cons_of_mem _ hm), fun m hm => ?_, fun m => ?_⟩
  · simp only [release, OrdMap.find?_insertOrAssign, hcount, Option.getD_some]
    split
    · rename_i heq
      subst heq
      congr 1
    · rename_i hne
      rw [h.indegree m hm, List.count_cons_of_ne (Ne.symm hne)]
  · have hm := h.ready m
    simp only [release, hcount, Option.getD_some]
    by_cases heq : m = n
    · subst heq
      simp only [List.count_cons_self] at hm
      split
      · simp only [contains_insert, decide_true, Bool.true_or, true_iff]
        exact ⟨hcontains, hnot, by omega⟩
      · rw [hm]
        constructor
        · intro h
          omega
        · intro h
          omega
    · rw [List.count_cons_of_ne (Ne.symm heq)] at hm
      split
      · simpa [heq] using hm
      · exact hm

theorem foldl_releasing (done : List α) {rest : List α} : ∀ k : State α, Releasing nodes (done ++ rest) k →
    Releasing nodes rest (done.foldl release k) ∧ (done.foldl release k).order = k.order := by
  induction done with
  | nil => exact fun k h => ⟨h, rfl⟩
  | cons n done ih => exact fun k h => ih (release k n) (release_releasing h)

omit [Std.TransOrd α] [Std.LawfulEqOrd α] in
theorem countP_eq_zero_iff {order : List α} (n : α) :
    (dependenciesOf nodes n).countP (fun d => d ∉ order) = 0 ↔ ∀ d ∈ dependenciesOf nodes n, d ∈ order := by
  simp [List.countP_eq_zero]

/-- `n` goes from the ready nodes to the order. -/
def taken (k : State α) (n : α) : State α := { k with ready := k.ready.erase n, order := k.order ++ [n] }

/-- One round takes the least ready node. -/
theorem round_cases (hk : round nodes k = some k') : ∃ n, OrdMap.contains k.ready n = true ∧
    (∀ m, OrdMap.contains k.ready m = true → (compare n m).isLE = true) ∧
    k' = (dependentsOf nodes n).foldl release (taken k n) := by
  unfold round at hk
  split at hk
  · cases hk
  · rename_i n u rest hentries
    obtain rfl := Option.some.inj hk
    have hsorted := k.ready.sorted
    rw [hentries] at hsorted
    refine ⟨n, OrdMap.mem_keys.1 (by simp [OrdMap.keys, hentries]), fun m hm => ?_, rfl⟩
    have hmem := OrdMap.mem_keys.2 hm
    simp only [OrdMap.keys, hentries, List.map_cons, List.mem_cons, List.mem_map] at hmem
    rcases hmem with rfl | ⟨e, he, rfl⟩
    · exact Std.ReflOrd.isLE_rfl
    · rw [(List.pairwise_cons.1 hsorted).1 e he]
      rfl

/-- Then all that depend on it wait to be released. -/
theorem taken_releasing (h : Inv nodes k) {n : α} (hready : OrdMap.contains k.ready n = true) :
    Releasing nodes (dependentsOf nodes n) (taken k n) := by
  obtain ⟨hcontains, hnot, hdeps⟩ := (h.ready n).1 hready
  refine ⟨fun m hm => ?_, fun m hm => ?_, fun m => ?_⟩
  · -- `m` depends on `n`, so it is not in the order yet and is not `n` itself
    have hdep : n ∈ dependenciesOf nodes m := by
      rw [← List.count_pos_iff, dependenciesOf, ← count_dependentsOf, List.count_pos_iff]
      exact hm
    refine ⟨?_, fun hmem => ?_⟩
    · by_contra hno
      have hnone : nodes.find? m = none := by simpa [OrdMap.contains] using hno
      simp [dependenciesOf, hnone] at hdep
    · rcases List.mem_append.1 hmem with hold | hself
      · exact hnot (h.closed.mem hold n hdep)
      · obtain rfl := List.mem_singleton.1 hself
        exact hnot (hdeps m hdep)
  · rw [count_dependentsOf]
    exact (h.indegree m hm).trans (congrArg some (countP_snoc hnot _))
  · have herase : OrdMap.contains (k.ready.erase n) m = true ↔ m ≠ n ∧ OrdMap.contains k.ready m = true := by
      simp only [OrdMap.contains, OrdMap.find?_erase]
      split <;> simp_all
    rw [count_dependentsOf]
    have hsum := countP_snoc hnot (dependenciesOf nodes m)
    change OrdMap.contains (k.ready.erase n) m = true ↔ nodes.contains m = true ∧ m ∉ k.order ++ [n] ∧
      (dependenciesOf nodes m).countP (fun d => d ∉ k.order ++ [n]) + _ = 0
    rw [herase, h.ready m, show ((nodes.find? m).getD []) = dependenciesOf nodes m from rfl, ← hsum, countP_eq_zero_iff]
    simp only [List.mem_append, List.mem_singleton, not_or]
    tauto

/-- No counter is at zero when it is counted down. -/
theorem counter_pos (h : Inv nodes k) {n m : α} (hready : OrdMap.contains k.ready n = true) {done rest : List α}
    (hsplit : dependentsOf nodes n = done ++ m :: rest) :
    ∃ count, (done.foldl release (taken k n)).indegree.find? m = some (count + 1) := by
  obtain ⟨hreleasing, -⟩ := foldl_releasing done _ (hsplit ▸ taken_releasing h hready)
  have hcount := hreleasing.indegree m (hreleasing.waiting m List.mem_cons_self).1
  rw [List.count_cons_self, ← Nat.add_assoc] at hcount
  exact ⟨_, hcount⟩

theorem round_inv (h : Inv nodes k) (hk : round nodes k = some k') :
    Inv nodes k' ∧ k'.order.length = k.order.length + 1 := by
  obtain ⟨n, hready, -, rfl⟩ := round_cases hk
  obtain ⟨hcontains, hnot, hdeps⟩ := (h.ready n).1 hready
  have hstart := taken_releasing h hready
  rw [← List.append_nil (dependentsOf nodes n)] at hstart
  obtain ⟨hend, horder⟩ := foldl_releasing (dependentsOf nodes n) _ hstart
  simp only [taken] at horder
  refine ⟨⟨?_, ?_, ?_, fun m hm => ?_, fun m => ?_⟩, by simp only [taken]; rw [horder]; simp⟩
  · simp only [taken, horder]
    refine List.nodup_append.2 ⟨h.nodup, by simp, fun a ha b hb heq => hnot ?_⟩
    rw [← List.mem_singleton.1 hb, ← heq]
    exact ha
  · simp only [taken, horder]
    intro m hm
    rcases List.mem_append.1 hm with hm | hm
    · exact h.known m hm
    · exact List.mem_singleton.1 hm ▸ hcontains
  · simp only [taken, horder]
    exact h.closed.snoc hdeps
  · simpa using hend.indegree m hm
  · rw [hend.ready m, List.count_nil, Nat.add_zero, countP_eq_zero_iff]

theorem initial_inv : Inv nodes (initial nodes) := by
  have hemplace : ∀ (es : List (α × List α)) (m : OrdMap α Nat) (n : α), Ascending es → (∀ e ∈ es, m.find? e.1 = none) →
      (es.foldl (fun m e => m.emplace e.1 e.2.length) m).find? n = ((findEntry n es).map List.length).or (m.find? n) := by
    intro es
    induction es with
    | nil => simp [findEntry]
    | cons e rest ih =>
        intro m n hes hfree
        have hhead : m.contains e.1 = false := by simp [OrdMap.contains, hfree e (by simp)]
        rw [List.foldl_cons, ih _ n (List.pairwise_cons.1 hes).2]
        · simp only [OrdMap.find?_emplace, hhead, and_true, findEntry]
          split
          · rename_i heq
            subst heq
            rw [findEntry_none fun e' he' h => hes.ne_head he' h.symm]
            simp
          · rfl
        · intro e' he'
          rw [OrdMap.find?_emplace, if_neg fun h => hes.ne_head he' h.1]
          exact hfree e' (List.mem_cons_of_mem _ he')
  refine ⟨List.nodup_nil, by simp [initial], .nil, fun n hn => ?_, fun n => ?_⟩
  · have h := hemplace nodes.entries ∅ n nodes.sorted (fun _ _ => rfl)
    simp only [initial]
    rw [h]
    obtain ⟨ds, hds⟩ := Option.isSome_iff_exists.1 hn
    have hfind : findEntry n nodes.entries = some ds := hds
    simp [hfind, dependenciesOf, hds]
  · have hmem : OrdMap.contains (initial nodes).ready n = true ↔ ∃ ds, nodes.find? n = some ds ∧ ds = [] := by
      simp only [initial, contains_insertAll, Bool.or_eq_true, decide_eq_true_eq, List.mem_map, List.mem_filter,
        List.length_eq_zero_iff, Prod.exists, exists_and_right, exists_eq_right, ← OrdMap.mem_entries]
      simp [OrdMap.contains]
    rw [hmem]
    constructor
    · rintro ⟨ds, hds, rfl⟩
      simp [OrdMap.contains, hds, dependenciesOf, initial]
    · rintro ⟨hsome, -, hdeps⟩
      obtain ⟨ds, hds⟩ := Option.isSome_iff_exists.1 hsome
      simp only [initial, dependenciesOf, hds, Option.getD_some, List.not_mem_nil] at hdeps
      exact ⟨ds, hds, List.eq_nil_iff_forall_not_mem.2 hdeps⟩

omit [Std.TransOrd α] in
theorem length_le (h : Inv nodes k) : k.order.length ≤ nodes.size := by
  have hsub : k.order ⊆ nodes.keys := fun n hn => OrdMap.mem_keys.2 (h.known n hn)
  simpa [OrdMap.keys, OrdMap.size] using (List.subperm_of_subset h.nodup hsub).length_le

/-- With enough rounds the loop ends because no node is ready. -/
theorem run_inv (fuel : Nat) : ∀ k : State α, Inv nodes k → nodes.size < k.order.length + fuel →
    Inv nodes (run nodes fuel k) ∧ (run nodes fuel k).ready.entries = [] := by
  induction fuel with
  | zero =>
      intro k h hfuel
      have := length_le h
      omega
  | succ fuel ih =>
      intro k h hfuel
      simp only [run]
      split
      · rename_i hnone
        refine ⟨h, ?_⟩
        unfold round at hnone
        split at hnone
        · assumption
        · cases hnone
      · rename_i k' hk
        obtain ⟨h', hlength⟩ := round_inv h hk
        exact ih k' h' (by omega)

/-- The invariant holds after any number of rounds. -/
theorem inv_run (fuel : Nat) : ∀ k : State α, Inv nodes k → Inv nodes (run nodes fuel k) := by
  induction fuel with
  | zero => exact fun _ h => h
  | succ fuel ih =>
      intro k h
      simp only [run]
      split
      · exact h
      · rename_i k' hk
        exact ih k' (round_inv h hk).1

theorem result_inv : Inv nodes (result nodes) ∧ (result nodes).ready.entries = [] :=
  run_inv _ _ initial_inv (by simp [initial])

/-- An order of all nodes lists each once. -/
theorem mem_result (hsize : (result nodes).order.length = nodes.size) {n : α} :
    n ∈ (result nodes).order ↔ nodes.contains n = true := by
  have h : Inv nodes (result nodes) := result_inv.1
  refine ⟨h.known n, fun hn => ?_⟩
  have hsub : (result nodes).order ⊆ nodes.keys := fun n hn => OrdMap.mem_keys.2 (h.known n hn)
  have hperm := (List.subperm_of_subset h.nodup hsub).perm_of_length_le (by simp [OrdMap.keys, OrdMap.size] at hsize ⊢; omega)
  exact hperm.mem_iff.2 (OrdMap.mem_keys.2 hn)

/-! ## When all nodes are ordered -/

/-- Where no node depends on itself through others, all nodes are ordered. -/
theorem result_complete (hdependencies : ∀ n, ∀ d ∈ dependenciesOf nodes n, nodes.contains d = true)
    (hacyclic : ∀ n, ¬ Relation.TransGen (fun a b => b ∈ dependenciesOf nodes a) n n) :
    (result nodes).order.length = nodes.size := by
  obtain ⟨h, hempty⟩ : Inv nodes (result nodes) ∧ (result nodes).ready.entries = [] := result_inv
  let before (a b : {n // n ∈ nodes.keys}) : Prop := Relation.TransGen (fun a b => b ∈ dependenciesOf nodes a) b.1 a.1
  have htrans : IsTrans _ before := ⟨fun _ _ _ hab hbc => hbc.trans hab⟩
  have hirrefl : Std.Irrefl before := ⟨fun a => hacyclic a.1⟩
  have hfinite : Finite {n // n ∈ nodes.keys} := (List.finite_toSet nodes.keys).to_subtype
  have hwf : WellFounded before := Finite.wellFounded_of_trans_of_irrefl before
  have hall : ∀ n : {n // n ∈ nodes.keys}, n.1 ∈ (result nodes).order := by
    intro n
    induction n using hwf.induction with
    | _ n ih =>
        by_contra hnot
        have hready := (h.ready n.1).2 ⟨OrdMap.mem_keys.1 n.2, hnot, fun d hd =>
          ih ⟨d, OrdMap.mem_keys.2 (hdependencies n.1 d hd)⟩ (.single hd)⟩
        have hmem := OrdMap.mem_keys.2 hready
        simp [OrdMap.keys, hempty] at hmem
  have hperm : (result nodes).order.Perm nodes.keys :=
    (List.perm_ext_iff_of_nodup h.nodup OrdMap.keys_nodup).2 fun n =>
      ⟨fun hn => OrdMap.mem_keys.2 (h.known n hn), fun hn => hall ⟨n, hn⟩⟩
  rw [hperm.length_eq]
  simp [OrdMap.keys, OrdMap.size]

/-! ## The least order -/

theorem round_least (h : Inv nodes k) (hleast : Least nodes k.order) (hk : round nodes k = some k') :
    Least nodes k'.order := by
  obtain ⟨n, hready, hmin, rfl⟩ := round_cases hk
  have hstart := taken_releasing h hready
  rw [← List.append_nil (dependentsOf nodes n)] at hstart
  rw [(foldl_releasing (dependentsOf nodes n) _ hstart).2]
  exact forall_split_snoc hleast fun m hm hnot hdeps => hmin m ((h.ready m).2 ⟨hm, hnot, hdeps⟩)

theorem run_least (fuel : Nat) : ∀ k : State α, Inv nodes k → Least nodes k.order →
    Least nodes (run nodes fuel k).order := by
  induction fuel with
  | zero => exact fun _ _ hleast => hleast
  | succ fuel ih =>
      intro k h hleast
      simp only [run]
      split
      · exact hleast
      · rename_i k' hk
        exact ih k' (round_inv h hk).1 (round_least h hleast hk)

theorem result_least : Least nodes (result nodes).order :=
  run_least _ _ initial_inv fun before n after h => by simp [initial] at h

omit [Std.TransOrd α] in
/-- No closed order of the same nodes is lexicographically less. -/
theorem Least.lex {order other : List α} (hleast : Least nodes order) (hknown : ∀ n ∈ order, nodes.contains n = true)
    (hnodup : order.Nodup) (hclosed : Closed (dependenciesOf nodes) other) (hperm : other.Perm order) :
    order = other ∨ List.Lex (fun a b => compare a b = .lt) order other := by
  have hnodup' := hperm.nodup_iff.2 hnodup
  have hfrom : ∀ (rest rest' before : List α), order = before ++ rest → other = before ++ rest' →
      rest = rest' ∨ List.Lex (fun a b => compare a b = .lt) rest rest' := by
    intro rest
    induction rest with
    | nil =>
        intro rest' before horder hother
        have hlength := hperm.length_eq
        rw [horder, hother] at hlength
        simp only [List.length_append, List.length_nil, Nat.add_zero] at hlength
        exact .inl (List.eq_nil_of_length_eq_zero (by omega)).symm
    | cons n rest ih =>
        intro rest' before horder hother
        cases rest' with
        | nil =>
            have hlength := hperm.length_eq
            rw [horder, hother] at hlength
            simp at hlength
        | cons m rest' =>
            by_cases heq : n = m
            · subst heq
              rcases ih rest' (before ++ [n]) (by simp [horder]) (by simp [hother]) with rfl | hlex
              · exact .inl rfl
              · exact .inr (.cons hlex)
            · -- `m` could stand here too, so `n` is less
              have hmem : m ∈ order := hperm.mem_iff.1 (by simp [hother])
              have hnot : m ∉ before := by
                rw [hother] at hnodup'
                exact fun h => (List.nodup_append.1 hnodup').2.2 m h m List.mem_cons_self rfl
              have hle := hleast before n rest horder m (hknown m hmem) hnot (hclosed before m rest' hother)
              refine .inr (.rel ?_)
              cases hcompare : compare n m with
              | lt => rfl
              | eq => exact absurd (Std.LawfulEqOrd.compare_eq_iff_eq.1 hcompare) heq
              | gt => rw [hcompare] at hle; cases hle
  exact hfrom order other [] rfl rfl

end Loop

end Kahn

end RttOpcua.Lib
