import Mathlib.Logic.Relation
import Mathlib.Order.Basic
import RestApi.RowScan

namespace RestApi.RowStore
open Pool

section Cycles
variable {Party Lock Level : Type} (wants : Party → Option Lock) (holds : Party → Lock → Prop)

-- Each party is stopped at one lock at most.
def Waits (p q : Party) : Prop := ∃ k, wants p = some k ∧ holds q k

def Deadlock : Prop := ∃ p, Relation.TransGen (Waits wants holds) p p

variable {wants holds}

theorem opposed_deadlock (first : wants p = some k) (theirs : holds q k) (second : wants q = some l)
    (mine : holds p l) : Deadlock wants holds :=
  ⟨p,.tail (.single ⟨k,first,theirs⟩) ⟨l,second,mine⟩⟩

theorem waits_on (path : Relation.TransGen (Waits wants holds) p q) (wanted : wants p = some k)
    (stuck : wants q = some l) : ∃ r beyond, holds r k ∧ wants r = some beyond := by
  cases Relation.TransGen.head'_iff.mp path with
  | intro r step =>
      obtain ⟨⟨found,same,held⟩,rest⟩ := step
      cases wanted.symm.trans same
      rcases Relation.ReflTransGen.cases_head rest with rfl | ⟨_,⟨beyond,next,_⟩,_⟩
      · exact ⟨r,l,held,stuck⟩
      · exact ⟨r,beyond,held,next⟩

-- Locks are numbered, and whoever waits for a lock whose holder waits in turn
-- holds only smaller ones.
theorem no_deadlock [Preorder Level] (measure : Lock → Level)
    (climbs : ∀ {q r k next beyond}, holds q k → wants q = some next → holds r next →
      wants r = some beyond → measure k < measure next) : ¬Deadlock wants holds := by
  have rises {p q : Party} (path : Relation.TransGen (Waits wants holds) p q) {k next : Lock}
      (wanted : wants p = some k) (stuck : wants q = some next) {r : Party} {beyond : Lock}
      (held : holds r next) (more : wants r = some beyond) : measure k < measure next := by
    induction path generalizing next r beyond with
    | single step =>
        obtain ⟨found,same,theirs⟩ := step
        cases wanted.symm.trans same
        exact climbs theirs stuck held more
    | tail _ step ih =>
        obtain ⟨found,same,theirs⟩ := step
        exact (ih same theirs stuck).trans (climbs theirs stuck held more)
  rintro ⟨p,cycle⟩
  obtain ⟨_,⟨k,wanted,_⟩,_⟩ := Relation.TransGen.head'_iff.mp cycle
  obtain ⟨r,beyond,held,more⟩ := waits_on cycle wanted wanted
  exact lt_irrefl _ (rises cycle wanted wanted held more)

end Cycles

section Rising
variable {Row Key Rank : Type} {S : Schema Row Key} [LT Rank] {rank : Key → Rank} {t : Tx Row Key}

-- A statement goes through its rows in the order of their ranks.
def Tx.Rises (S : Schema Row Key) (rank : Key → Rank) (t : Tx Row Key) : Prop :=
  ∀ scan, t.scan = some scan →
    scan.rest.Pairwise (rank · < rank ·) ∧ ∀ k ∈ S.keys (scan.hits ++ scan.misses),
      ∀ next ∈ scan.rest, rank k < rank next

theorem planned_rises {order : List Key} (sorted : order.Pairwise (rank · < rank ·)) :
    Tx.Rises S rank {t with scan := some ⟨snapshot,test,order,[],[]⟩} := by
  rintro _ ⟨⟩
  exact ⟨sorted,fun _ none' => absurd none' List.not_mem_nil⟩

theorem idle_rises (idle : t.scan = none) : t.Rises S rank := by
  intro scan scanning
  rw [idle] at scanning
  cases scanning

variable [DecidableEq Key]

theorem visited_rises {scan : Scan Row Key} {row : Row} {rest : List Key} {committed : Option Row}
    {change : Option (Row → Row)} (rises : t.Rises S rank) (scanning : t.scan = some scan)
    (next : scan.rest = S.key row :: rest) :
    (t.visited S scan rest committed now row change).Rises S rank := by
  obtain ⟨sorted,passed⟩ := rises scan scanning
  rw [next,List.pairwise_cons] at sorted
  have passes {all : List Row} (perm : all.Perm (row :: (scan.hits ++ scan.misses))) :
      ∀ k ∈ S.keys all, ∀ later ∈ rest, rank k < rank later := by
    intro k member later waiting
    rw [Schema.keys,(perm.map S.key).mem_iff] at member
    rcases List.mem_cons.mp member with rfl | old
    · exact sorted.1 later waiting
    · exact passed k old later (next ▸ List.mem_cons_of_mem _ waiting)
  unfold Tx.visited
  dsimp only
  split
  · cases change <;> rintro _ ⟨⟩ <;> exact ⟨sorted.2,passes (.refl _)⟩
  · rintro _ ⟨⟩
    exact ⟨sorted.2,passes List.perm_middle⟩

end Rising
end RestApi.RowStore
