import Mathlib.Data.List.Flatten
import Mathlib.Data.List.Nodup
import Mathlib.Data.List.Perm.Basic

-- Pages of a list: consecutive windows of one size, possibly cut from a
-- different arrangement of the same elements for each page.
namespace RestApi.Windows

variable {α : Type} {le : α → α → Prop} {rows : List α}

def window (xs : List α) (size k : Nat) : List α := (xs.drop (k * size)).take size

def pages (count size : Nat) : Nat := (count + size - 1) / size

-- The elements in some order that le does not contradict.
structure Arranges (le : α → α → Prop) (rows arranged : List α) : Prop where
  perm : arranged.Perm rows
  sorted : arranged.Pairwise le

theorem pages_enough (positive : 0 < size) : count ≤ pages count size * size := by
  unfold pages
  have split := Nat.div_add_mod (count + size - 1) size
  have rest := Nat.mod_lt (count + size - 1) positive
  have comm := Nat.mul_comm ((count + size - 1) / size) size
  omega

theorem pages_before (positive : 0 < size) (earlier : k < pages count size) : k * size < count := by
  unfold pages at earlier
  have bound : (k + 1) * size ≤ count + size - 1 := (Nat.le_div_iff_mul_le positive).mp earlier
  have grown : (k + 1) * size = k * size + size := by grind
  omega

section Ties
variable {le : α → α → Bool}

-- How many elements le puts strictly before one, and how many it does not put after it.
def before (le : α → α → Bool) (rows : List α) (a : α) : Nat := rows.countP fun x => !le a x

def through (le : α → α → Bool) (rows : List α) (a : α) : Nat := rows.countP fun x => le x a

-- Elements that le does not tell apart lie on both sides of the end of a page.
def Straddles (le : α → α → Bool) (rows : List α) (size : Nat) : Prop :=
  ∃ a ∈ rows, ∃ k, before le rows a < k * size ∧ k * size < through le rows a

theorem before_le (total : ∀ a b, le a b || le b a) (sorted : xs.Pairwise (le · ·))
    (inside : i < xs.length) : before le xs xs[i] ≤ i := by
  unfold before
  have rest : (xs.drop i).countP (fun x => !le xs[i] x) = 0 := by
    rw [List.countP_eq_zero,List.drop_eq_getElem_cons inside]
    have tail := sorted.drop (i := i)
    rw [List.drop_eq_getElem_cons inside,List.pairwise_cons] at tail
    intro x member
    rcases List.mem_cons.mp member with rfl | later
    · have own := total xs[i] xs[i]
      simpa using own
    · simpa using tail.1 x later
  have front : (xs.take i).countP (fun x => !le xs[i] x) ≤ i :=
    Nat.le_trans List.countP_le_length (List.length_take_le i xs)
  calc xs.countP (fun x => !le xs[i] x)
      = (xs.take i).countP (fun x => !le xs[i] x) + (xs.drop i).countP (fun x => !le xs[i] x) := by
        rw [← List.countP_append,List.take_append_drop]
    _ ≤ i := by omega

theorem lt_through (total : ∀ a b, le a b || le b a) (sorted : xs.Pairwise (le · ·))
    (inside : i < xs.length) : i < through le xs xs[i] := by
  unfold through
  have front : (xs.take (i + 1)).countP (fun x => le x xs[i]) = i + 1 := by
    have length : (xs.take (i + 1)).length = i + 1 := by simp; omega
    refine (List.countP_eq_length.mpr ?_).trans length
    have head := sorted.take (i := i + 1)
    rw [List.take_succ_eq_append_getElem inside,List.pairwise_append] at head
    intro x member
    rw [List.take_succ_eq_append_getElem inside] at member
    rcases List.mem_append.mp member with earlier | last
    · exact head.2.2 x earlier _ (List.mem_singleton_self _)
    · rw [List.mem_singleton.mp last]
      simpa using total xs[i] xs[i]
  calc i < (xs.take (i + 1)).countP (fun x => le x xs[i]) := by omega
    _ ≤ xs.countP fun x => le x xs[i] := (List.take_sublist _ _).countP_le

-- Where no group of ties lies across a position, it is the same elements that come before
-- it in every arrangement.
theorem take_settled (total : ∀ a b, le a b || le b a) (arranges : Arranges (le · ·) rows xs)
    (clean : ∀ a ∈ rows, ¬(before le rows a < n ∧ n < through le rows a)) :
    xs.take n = xs.filter fun a => decide (through le rows a ≤ n) := by
  have settled : ∀ i, (inside : i < xs.length) → (through le rows xs[i] ≤ n ↔ i < n) := by
    intro i inside
    have low := before_le total arranges.sorted inside
    have high := lt_through total arranges.sorted inside
    have apart := clean xs[i] (arranges.perm.subset (List.getElem_mem inside))
    unfold before through at *
    rw [arranges.perm.countP_eq] at low high
    omega
  conv => rhs; rw [← List.take_append_drop n xs]
  have front : (xs.take n).filter (fun a => decide (through le rows a ≤ n)) = xs.take n := by
    rw [List.filter_eq_self]
    intro a member
    obtain ⟨i,inside,rfl⟩ := List.mem_iff_getElem.mp member
    simp only [List.length_take] at inside
    rw [List.getElem_take,decide_eq_true_eq,settled]
    omega
  have rest : (xs.drop n).filter (fun a => decide (through le rows a ≤ n)) = [] := by
    rw [List.filter_eq_nil_iff]
    intro a member
    obtain ⟨i,inside,rfl⟩ := List.mem_iff_getElem.mp member
    simp only [List.length_drop] at inside
    rw [List.getElem_drop,decide_eq_true_eq,settled]
    omega
  rw [List.filter_append,front,rest,List.append_nil]

theorem take_perm (total : ∀ a b, le a b || le b a) (one : Arranges (le · ·) rows xs)
    (two : Arranges (le · ·) rows ys)
    (clean : ∀ a ∈ rows, ¬(before le rows a < n ∧ n < through le rows a)) :
    (xs.take n).Perm (ys.take n) := by
  rw [take_settled total one clean,take_settled total two clean]
  exact (one.perm.trans two.perm.symm).filter _

-- The pages read so far are the first rows of any arrangement.
theorem pages_take (total : ∀ a b, le a b || le b a) (arranged : Nat → List α)
    (each : ∀ k < n, Arranges (le · ·) rows (arranged k)) (other : Arranges (le · ·) rows ys)
    (clean : ¬Straddles le rows size) :
    ((List.range n).flatMap fun k => window (arranged k) size k).Perm (ys.take (n * size)) := by
  have boundary : ∀ k, ∀ a ∈ rows, ¬(before le rows a < k * size ∧ k * size < through le rows a) :=
    fun k a member across => clean ⟨a,member,k,across⟩
  induction n with
  | zero => simp
  | succ n ih =>
      have last := each n (by omega)
      have earlier := ih fun k inside => each k (by omega)
      have grown : (n + 1) * size = n * size + size := by grind
      rw [List.range_succ,List.flatMap_append]
      calc _ = _ ++ window (arranged n) size n := by simp
        _ |>.Perm ((arranged n).take (n * size) ++ window (arranged n) size n) :=
          (earlier.trans (take_perm total other last (boundary n))).append_right _
        _ = (arranged n).take ((n + 1) * size) := by rw [grown,List.take_add]; rfl
        _ |>.Perm (ys.take ((n + 1) * size)) := take_perm total last other (boundary (n + 1))

-- An element at a position of a group of ties belongs to the group.
theorem tied_at (trans : ∀ a b c, le a b → le b c → le a c) (sorted : xs.Pairwise (le · ·))
    (inside : i < xs.length) (low : before le xs a ≤ i)
    (high : i < through le xs a) : le a xs[i] ∧ le xs[i] a := by
  constructor
  · by_contra apart
    have front : ∀ x ∈ xs.take (i + 1), (!le a x) = true := by
      have head := sorted.take (i := i + 1)
      rw [List.take_succ_eq_append_getElem inside,List.pairwise_append] at head
      intro x member
      rw [List.take_succ_eq_append_getElem inside] at member
      rw [Bool.not_eq_true',← Bool.not_eq_true]
      rcases List.mem_append.mp member with earlier | last
      · exact fun reached => apart (trans _ _ _ reached
          (head.2.2 x earlier _ (List.mem_singleton_self _)))
      · rwa [List.mem_singleton.mp last]
    have counted := (List.take_sublist (i + 1) xs).countP_le (p := fun x => !le a x)
    rw [List.countP_eq_length.mpr front,List.length_take] at counted
    unfold before at low
    omega
  · by_contra apart
    have rest : ∀ x ∈ xs.drop i, ¬le x a := by
      have tail := sorted.drop (i := i)
      rw [List.drop_eq_getElem_cons inside,List.pairwise_cons] at tail
      intro x member reached
      rw [List.drop_eq_getElem_cons inside] at member
      rcases List.mem_cons.mp member with rfl | later
      · exact apart reached
      · exact apart (trans _ _ _ (tail.1 x later) reached)
    have counted : through le xs a ≤ i := by
      unfold through
      rw [← List.take_append_drop i xs,List.countP_append,List.countP_eq_zero.mpr rest]
      exact Nat.le_trans List.countP_le_length (List.length_take_le i xs)
    omega

-- Two neighbours that are tied may stand in either order.
theorem swapped_arranges (arranges : Arranges (le · ·) rows (front ++ u :: v :: rest))
    (tied : le v u) : Arranges (le · ·) rows (front ++ v :: u :: rest) where
  perm := ((List.Perm.swap u v rest).append_left front).trans arranges.perm
  sorted := by
    have sorted := arranges.sorted
    simp only [List.pairwise_append,List.pairwise_cons,List.forall_mem_cons] at sorted ⊢
    obtain ⟨first,⟨⟨_,above⟩,beyond,later⟩,low⟩ := sorted
    exact ⟨first,⟨⟨tied,beyond⟩,above,later⟩,fun x member => ⟨(low x member).2.1,(low x member).1,
      (low x member).2.2⟩⟩

theorem window_mem (found : xs[i]? = some u) (low : k * size ≤ i)
    (high : i < (k + 1) * size) : u ∈ window xs size k := by
  have grown : (k + 1) * size = k * size + size := by grind
  rw [List.mem_iff_getElem?]
  refine ⟨i - k * size,?_⟩
  rw [window,List.getElem?_take_of_lt (by omega),List.getElem?_drop,Nat.add_sub_cancel' low,found]

theorem mergeSort_arranges (total : ∀ a b, le a b || le b a)
    (trans : ∀ a b c, le a b → le b c → le a c) (rows : List α) :
    Arranges (le · ·) rows (rows.mergeSort le) where
  perm := List.mergeSort_perm rows le
  sorted := List.pairwise_mergeSort trans total rows

theorem tied_neighbours (total : ∀ a b, le a b || le b a)
    (trans : ∀ a b c, le a b → le b c → le a c) (low : before le rows a ≤ n)
    (high : n + 1 < through le rows a) :
    ∃ front u v rest, Arranges (le · ·) rows (front ++ u :: v :: rest) ∧ front.length = n ∧
      le v u := by
  have arranges := mergeSort_arranges total trans rows
  generalize rows.mergeSort le = xs at arranges
  have lower : before le xs a ≤ n := Nat.le_trans (Nat.le_of_eq (arranges.perm.countP_eq _)) low
  have higher : n + 1 < through le xs a := Nat.lt_of_lt_of_eq high (arranges.perm.countP_eq _).symm
  have bound : through le xs a ≤ xs.length := List.countP_le_length
  have first : n < xs.length := by omega
  have second : n + 1 < xs.length := by omega
  have split : xs = xs.take n ++ xs[n] :: xs[n + 1] :: xs.drop (n + 2) := by
    rw [List.getElem_cons_drop,List.getElem_cons_drop,List.take_append_drop]
  refine ⟨xs.take n,xs[n],xs[n + 1],xs.drop (n + 2),split ▸ arranges,by simp; omega,?_⟩
  exact trans _ a _ (tied_at trans arranges.sorted second (by omega) higher).2
    (tied_at trans arranges.sorted first lower (by omega)).1

theorem page_inside (positive : 0 < size) (below : k * size < count) : k < pages count size :=
  Nat.lt_of_mul_lt_mul_right (Nat.lt_of_lt_of_le below (pages_enough positive))

-- A tie across the end of a page lets one element be on the page before and on the page after.
theorem straddled_repeats (positive : 0 < size) (total : ∀ a b, le a b || le b a)
    (trans : ∀ a b c, le a b → le b c → le a c) (once : rows.Nodup)
    (straddles : Straddles le rows size) :
    ∃ arranged : Nat → List α, (∀ k, Arranges (le · ·) rows (arranged k)) ∧
      ¬((List.range (pages rows.length size)).flatMap fun k => window
        (arranged k) size k).Perm rows := by
  obtain ⟨a,_,_ | k,low,high⟩ := straddles
  · omega
  have grown : (k + 1) * size = k * size + size := by grind
  have further : (k + 1 + 1) * size = (k + 1) * size + size := by grind
  obtain ⟨front,u,v,rest,arranges,length,tied⟩ :=
    tied_neighbours (n := (k + 1) * size - 1) total trans (show before le rows a ≤ _ by omega)
    (by omega)
  have inside : k + 1 < pages rows.length size :=
    page_inside positive (Nat.lt_of_lt_of_le high List.countP_le_length)
  refine ⟨fun j => if j < k + 1 then front ++ u :: v :: rest else front ++ v :: u :: rest,
    fun j => ?_,fun walked => ?_⟩
  · dsimp only
    split
    · exact arranges
    · exact swapped_arranges arranges tied
  · have apart := (List.nodup_flatMap.mp (walked.nodup_iff.mpr once)).2
    rw [List.pairwise_iff_getElem] at apart
    have disjoint := apart k (k + 1) (by simp; omega) (by simpa using inside) (by omega)
    simp only [Function.onFun,List.getElem_range,if_pos (Nat.lt_succ_self k),
      if_neg (Nat.lt_irrefl (k + 1))] at disjoint
    have onPage : u ∈ window (front ++ u :: v :: rest) size k :=
      window_mem (i := front.length) (by simp) (by omega) (by omega)
    have onNext : u ∈ window (front ++ v :: u :: rest) size (k + 1) :=
      window_mem (i := front.length + 1) (by simp) (by omega) (by omega)
    exact disjoint onPage onNext

-- Pages cut from differing arrangements give every element once, however they are
-- arranged, exactly when no tie lies across the end of a page.
theorem pages_exact (positive : 0 < size) (total : ∀ a b, le a b || le b a)
    (trans : ∀ a b c, le a b → le b c → le a c) (once : rows.Nodup) :
    (∀ arranged : Nat → List α, (∀ k < pages rows.length size, Arranges (le · ·) rows
      (arranged k)) →
      ((List.range (pages rows.length size)).flatMap fun k => window
        (arranged k) size k).Perm rows) ↔
      ¬Straddles le rows size := by
  constructor
  · intro walks straddles
    obtain ⟨arranged,each,broken⟩ := straddled_repeats positive total trans once straddles
    exact broken (walks arranged fun k _ => each k)
  · intro clean arranged each
    have sorted := mergeSort_arranges total trans rows
    have read := pages_take total arranged each sorted clean
    rw [List.take_of_length_le (sorted.perm.length_eq ▸ pages_enough positive)] at read
    exact read.trans sorted.perm

end Ties

end RestApi.Windows
