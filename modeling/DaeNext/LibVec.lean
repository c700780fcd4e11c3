/-
Operations of the standard vector that the sources lean on: the stable `sort_by`, the
neighbour-wise `dedup_by`, `swap_remove`, `chunks` and the iterator's `min_by_key`.

Insertion sort serves for `sort_by`: it is stable, as the original is, and it is
structurally recursive, so a sorted list can be evaluated. The facts below are
the ones that survive reordering and deduplication: what a predicate says about
the whole list.
-/
import DaeNext.LibFallible
import Mathlib.Data.List.Perm.Basic
import Mathlib.Data.List.Sort

set_option autoImplicit false

namespace Vec

open List

variable {α : Type*}

/-- `slice::sort_by`: a stable sort by a three-way comparison. -/
def sort_by (cmp : α → α → Ordering) (l : List α) : List α :=
  l.insertionSort (fun a b => (cmp a b).isLE)

variable (cmp : α → α → Ordering)

theorem sort_by_perm (l : List α) : (sort_by cmp l).Perm l :=
  perm_insertionSort _ l

variable {l : List α}

@[simp] theorem mem_sort_by {cmp : α → α → Ordering} {a : α} : a ∈ sort_by cmp l ↔ a ∈ l :=
  (sort_by_perm cmp l).mem_iff

@[simp] theorem sort_by_all (p : α → Bool) (l : List α) : (sort_by cmp l).all p = l.all p := by
  rw [Bool.eq_iff_iff]
  simp only [all_eq_true, mem_sort_by]

@[simp] theorem sort_by_any (p : α → Bool) (l : List α) : (sort_by cmp l).any p = l.any p := by
  rw [Bool.eq_iff_iff]
  simp only [any_eq_true, mem_sort_by]

theorem sort_by_pairwise [Std.TransCmp cmp] (l : List α) :
    (sort_by cmp l).Pairwise (fun a b => (cmp a b).isLE) := by
  have : IsTrans α (fun a b => (cmp a b).isLE = true) :=
    ⟨fun _ _ _ => Std.TransCmp.isLE_trans⟩
  have : Std.Total (fun a b => (cmp a b).isLE = true) :=
    ⟨fun a b => by
      have hswap : cmp b a = (cmp a b).swap := Std.OrientedCmp.eq_swap
      rw [hswap]
      cases cmp a b <;> simp⟩
  exact pairwise_insertionSort _ l

/-- The tail of `dedup_by`: drop what is the same as the last element kept. -/
def dedupAfter (same : α → α → Bool) (last : α) : List α → List α
  | [] => []
  | a :: l => if same a last then dedupAfter same last l else a :: dedupAfter same a l

/-- `Vec::dedup_by`: of neighbours that are the same, keep the first. -/
def dedup_by (same : α → α → Bool) : List α → List α
  | [] => []
  | a :: l => a :: dedupAfter same a l

/-- Deduplication keeps a predicate's verdict on the list when the predicate
cannot tell merged elements apart. -/
theorem dedup_by_any (same : α → α → Bool) (p : α → Bool)
    (hp : ∀ a b, same a b → p a = p b) (l : List α) : (dedup_by same l).any p = l.any p := by
  -- the element kept last already speaks for everything dropped after it
  have key : ∀ (l : List α) (last : α),
      (p last || (dedupAfter same last l).any p) = (p last || l.any p) := by
    intro l
    induction l with
    | nil => intro last; rfl
    | cons a l ih =>
      intro last
      rw [dedupAfter, any_cons]
      split
      · rename_i hsame
        rw [ih last, hp a last hsame]
        cases p last <;> simp
      · rw [any_cons, ih a]
  cases l with
  | nil => rfl
  | cons a l => rw [dedup_by, any_cons, any_cons, key l a]

/-! ## Swap removal -/

/-- `Vec::swap_remove`, what it leaves: the last element takes the place of the one removed. -/
def swap_remove (l : List α) (index : Nat) : List α :=
  match l.getLast? with
  | none => []
  | some last => (l.set index last).dropLast

theorem swap_remove_append (init : List α) (last : α) (index : Nat) :
    swap_remove (init ++ [last]) index = init.set index last := by
  rw [swap_remove, getLast?_append, getLast?_singleton, Option.some_or]
  dsimp only
  by_cases h : index < init.length
  · rw [set_append_left _ _ h, dropLast_concat]
  · rw [set_append_right _ _ (Nat.le_of_not_lt h), set_eq_of_length_le (Nat.le_of_not_lt h)]
    cases index - init.length with
    | zero | succ n => exact dropLast_concat

theorem swap_remove_perm {index : Nat} {a : α} (h : l[index]? = some a) :
    (a :: swap_remove l index).Perm l := by
  obtain ⟨hlt, hget⟩ := List.getElem?_eq_some_iff.mp h
  rcases eq_nil_or_concat' l with rfl | ⟨init, last, rfl⟩
  · cases h
  rw [swap_remove_append]
  by_cases hi : index < init.length
  · have ha : init[index] = a := by
      rw [← hget, getElem_append_left hi]
    calc (a :: init.set index last).Perm (a :: last :: init.eraseIdx index) :=
          (set_perm_cons_eraseIdx hi last).cons a
      _ |>.Perm (last :: a :: init.eraseIdx index) := List.Perm.swap _ _ _
      _ |>.Perm (last :: init) := by
          rw [← ha]
          exact (getElem_cons_eraseIdx_perm hi).cons last
      _ |>.Perm (init ++ [last]) := (perm_append_singleton last init).symm
  · rw [set_eq_of_length_le (Nat.le_of_not_lt hi)]
    have hlen : index = init.length := by
      rw [length_append, length_singleton] at hlt
      omega
    subst hlen
    rw [getElem_concat_length rfl] at hget
    rw [← hget]
    exact (perm_append_singleton last init).symm

theorem take_swap_remove {index : Nat} (h : index < l.length) :
    (swap_remove l index).take index = l.take index := by
  rcases eq_nil_or_concat' l with rfl | ⟨init, last, rfl⟩
  · cases h
  rw [length_append, length_singleton] at h
  rw [swap_remove_append, take_set_of_le le_rfl, take_append_of_le_length (by omega)]

/-! ## Least elements -/

/-- `Iterator::min_by_key`: the first of the elements with the least key. -/
def min_by_key (key : α → Int) : List α → Option α
  | [] => none
  | a :: l => some (l.foldl (fun least b => if key b < key least then b else least) a)

theorem foldl_min_mem (key : α → Int) (l : List α) (a : α) :
    l.foldl (fun least b => if key b < key least then b else least) a ∈ a :: l := by
  induction l generalizing a with
  | nil => exact mem_cons_self
  | cons b l ih =>
    rw [foldl_cons]
    split_ifs
    · exact mem_cons_of_mem _ (ih b)
    · rcases mem_cons.mp (ih a) with h | h
      · rw [h]
        exact mem_cons_self
      · exact mem_cons_of_mem _ (mem_cons_of_mem _ h)

theorem foldl_min_le (key : α → Int) (l : List α) (a : α) :
    ∀ b ∈ a :: l, key (l.foldl (fun least b => if key b < key least then b else least) a) ≤ key b := by
  induction l generalizing a with
  | nil =>
    intro b hb
    rw [mem_singleton.mp hb]
    exact Int.le_refl _
  | cons c l ih =>
    intro b hb
    rw [foldl_cons]
    have hfirst := ih (if key c < key a then c else a) _ mem_cons_self
    rcases mem_cons.mp hb with rfl | hb
    · split_ifs at hfirst ⊢ <;> omega
    · rcases mem_cons.mp hb with rfl | hb
      · split_ifs at hfirst ⊢ <;> omega
      · exact ih _ b (mem_cons_of_mem _ hb)

theorem min_by_key_spec {key : α → Int} {a : α} (h : min_by_key key l = some a) :
    a ∈ l ∧ ∀ b ∈ l, key a ≤ key b := by
  cases l with
  | nil => cases h
  | cons b l =>
    cases h
    exact ⟨foldl_min_mem key l b, foldl_min_le key l b⟩

theorem min_by_key_eq_none {key : α → Int} : min_by_key key l = none ↔ l = [] := by
  cases l with
  | nil => exact ⟨fun _ => rfl, fun _ => rfl⟩
  | cons a l => exact ⟨nofun, nofun⟩

theorem getElem?_append_cons (pre rest : List α) (a : α) : (pre ++ a :: rest)[pre.length]? = some a := by
  rw [getElem?_append_right le_rfl, Nat.sub_self]
  rfl

theorem take_drop_middle {pre middle : List α} {n : Nat} (h : middle.length = n) (rest : List α) :
    ((pre ++ middle ++ rest).drop pre.length).take n = middle := by
  rw [append_assoc, drop_left, take_left' h]

/-! ## Chunks -/

/-- `usize::div_ceil`. -/
def div_ceil (a b : Nat) : Nat := if a % b = 0 then a / b else a / b + 1

/-- `slice::chunks`: pieces of `n` elements, the last one possibly shorter. -/
def chunks (n : Nat) (l : List α) : List (List α) :=
  (List.range (div_ceil l.length n)).map fun i => (l.drop (i * n)).take n

theorem div_ceil_mul_le {a b : Nat} (hb : 0 < b) : a ≤ div_ceil a b * b := by
  have hdiv := Nat.div_add_mod a b
  rw [div_ceil]
  split_ifs with h
  · rw [Nat.mul_comm]
    omega
  · have hmod := Nat.mod_lt a hb
    rw [Nat.add_mul, Nat.mul_comm]
    omega

theorem lt_of_lt_div_ceil {a b i : Nat} (hb : 0 < b) (h : i < div_ceil a b) : i * b < a := by
  have hdiv := Nat.div_add_mod a b
  have hmul : b * (a / b) = a / b * b := Nat.mul_comm _ _
  rw [div_ceil] at h
  split_ifs at h with hmod
  · have hlt : i * b < a / b * b := Nat.mul_lt_mul_of_pos_right h hb
    omega
  · have hle : i * b ≤ a / b * b := Nat.mul_le_mul_right b (by omega)
    omega

theorem length_chunks (n : Nat) (l : List α) : (chunks n l).length = div_ceil l.length n := by
  rw [chunks, length_map, length_range]

theorem flatten_chunks {n : Nat} (hn : 0 < n) (l : List α) : (chunks n l).flatten = l := by
  have hprefix : ∀ k, ((List.range k).map fun i => (l.drop (i * n)).take n).flatten
      = l.take (k * n) := by
    intro k
    induction k with
    | zero => rw [Nat.zero_mul, take_zero]; rfl
    | succ k ih =>
      rw [range_succ, map_append, flatten_append, ih, map_singleton,
        flatten_singleton, Nat.add_mul, Nat.one_mul, take_add]
  rw [chunks, hprefix]
  exact take_of_length_le (div_ceil_mul_le hn)

theorem mem_chunks {n : Nat} (hn : 0 < n) {piece : List α} (h : piece ∈ chunks n l) :
    piece ≠ [] ∧ piece.length ≤ n := by
  obtain ⟨i, hi, rfl⟩ := mem_map.mp h
  have hlt := lt_of_lt_div_ceil hn (mem_range.mp hi)
  constructor
  · rw [← length_pos_iff, length_take, length_drop]
    omega
  · exact length_take_le _ _

/-- A loop over numbered pieces that may fail: the results keep the pieces, in order. -/
theorem mapM_chunks {ε α β : Type} {n : Nat} (hn : 0 < n) {l : List α}
    {make : List α × Nat → Except ε β} {r : List β} (h : (chunks n l).zipIdx.mapM make = .ok r)
    (part : β → List α) (hpart : ∀ piece i b, make (piece, i) = .ok b → part b = piece) :
    r.length = div_ceil l.length n ∧ (r.map part).flatten = l
      ∧ ∀ (i : Nat) (b : β), r[i]? = some b →
        make (part b, i) = .ok b ∧ part b ≠ [] ∧ (part b).length ≤ n := by
  have hlength : r.length = div_ceil l.length n := by
    rw [Fallible.mapM_length h, length_zipIdx, length_chunks]
  have hat : ∀ (i : Nat) (b : β), r[i]? = some b →
      (chunks n l)[i]? = some (part b) ∧ make (part b, i) = .ok b := by
    intro i b hget
    obtain ⟨⟨piece, j⟩, hpiece, hmade⟩ := Fallible.mapM_getElem? h hget
    rw [getElem?_zipIdx, Option.map_eq_some_iff] at hpiece
    obtain ⟨other, hpiece, heq⟩ := hpiece
    cases heq
    rw [Nat.zero_add] at hmade
    rw [hpart _ _ _ hmade]
    exact ⟨hpiece, hmade⟩
  have hpieces : r.map part = chunks n l := by
    apply ext_getElem?
    intro i
    rw [getElem?_map]
    cases hget : r[i]? with
    | some b => exact (hat i b hget).1.symm
    | none =>
      rw [List.getElem?_eq_none_iff, hlength, ← length_chunks] at hget
      exact (getElem?_eq_none hget).symm
  refine ⟨hlength, by rw [hpieces, flatten_chunks hn], fun i b hget => ?_⟩
  obtain ⟨hpiece, hmade⟩ := hat i b hget
  exact ⟨hmade, mem_chunks hn (mem_of_getElem? hpiece)⟩

end Vec
