import Mathlib.Algebra.Order.Group.Basic
import Mathlib.Algebra.Order.Monoid.Unbundled.Pow
import Mathlib.Tactic.Abel

namespace RestApi.Leases

variable {Time Holder : Type} [AddCommGroup Time] [LinearOrder Time]

-- The instants, newest first, at which an exclusive lease of one length was taken.
def Spaced (ttl : Time) : List Time → Prop
  | [] => True
  | [_] => True
  | newer :: older :: rest => older+ttl ≤ newer ∧ Spaced ttl (older :: rest)

theorem spaced_cons {ttl instant : Time} {times : List Time} (spaced : Spaced ttl times)
    (later : ∀ newest ∈ times.head?, newest+ttl ≤ instant) : Spaced ttl (instant :: times) := by
  cases times with
  | nil => trivial
  | cons newest rest => exact ⟨later newest rfl,spaced⟩

-- n leases take n-1 times their length.
theorem spaced_span [IsOrderedAddMonoid Time] {ttl first newest : Time} {rest : List Time}
    (spaced : Spaced ttl (newest :: rest)) (bounded : ∀ instant ∈ newest :: rest, first ≤ instant) :
    rest.length • ttl ≤ newest-first := by
  induction rest generalizing newest with
  | nil => simpa using bounded newest List.mem_cons_self
  | cons older rest ih =>
      obtain ⟨gap,spaced⟩ := spaced
      have span := ih spaced fun instant member => bounded instant (List.mem_cons_of_mem _ member)
      calc (older :: rest).length • ttl = rest.length • ttl+ttl := succ_nsmul ttl rest.length
        _ ≤ older-first+ttl := by gcongr
        _ = older+ttl-first := by abel
        _ ≤ newest-first := by gcongr

-- The account of one lease: what was granted since `first`, how many grants have
-- been spent, and who may still hold an unspent one. `expiry` is what the store
-- remembers; nobody shortens it.
structure Account (ttl first : Time) (expiry : Option Time) (instant : Time) (spent : Nat)
    (holds : Holder → Prop) : Prop where
  ledger : ∃ times : List Time, ∃ waiting : List Holder, Spaced ttl times ∧
    (∀ taken ∈ times, first ≤ taken ∧ taken ≤ instant) ∧
    (∀ newest ∈ times.head?, ∃ lapse, expiry = some lapse ∧ newest+ttl ≤ lapse) ∧
    spent+waiting.length ≤ times.length ∧ ∀ holder, holds holder → holder ∈ waiting
  forward : first ≤ instant

section Accounts
variable {ttl first instant : Time} {expiry : Option Time} {spent : Nat} {holds : Holder → Prop}

theorem Account.start (ttl first : Time) (expiry : Option Time) (nobody : ∀ holder, ¬holds holder) :
    Account ttl first expiry first 0 holds :=
  ⟨⟨[],[],trivial,by simp,by simp,by simp,fun holder held => absurd held (nobody holder)⟩,
    le_refl first⟩

theorem Account.later {after : Time} {fewer : Holder → Prop}
    (account : Account ttl first expiry instant spent holds) (passed : instant ≤ after)
    (less : ∀ holder, fewer holder → holds holder) :
    Account ttl first expiry after spent fewer := by
  obtain ⟨⟨times,waiting,spaced,bounded,remembered,counted,listed⟩,forward⟩ := account
  refine ⟨⟨times,waiting,spaced,fun taken member => ?_,remembered,counted,
    fun holder held => listed holder (less holder held)⟩,forward.trans passed⟩
  exact ⟨(bounded taken member).1,(bounded taken member).2.trans passed⟩

-- A grant is given only when the store has forgotten the last one.
theorem Account.granted {more : Holder → Prop}
    (account : Account ttl first expiry instant spent holds) (holder : Holder)
    (lapsed : ∀ lapse, expiry = some lapse → lapse ≤ instant)
    (added : ∀ other, more other → other = holder ∨ holds other) :
    Account ttl first (some (instant+ttl)) instant spent more := by
  obtain ⟨⟨times,waiting,spaced,bounded,remembered,counted,listed⟩,forward⟩ := account
  refine ⟨⟨instant :: times,holder :: waiting,spaced_cons spaced fun newest top => ?_,
    fun taken member => ?_,fun newest top => ?_,?_,fun other held => ?_⟩,forward⟩
  · obtain ⟨lapse,known,early⟩ := remembered newest top
    exact early.trans (lapsed lapse known)
  · rcases List.mem_cons.mp member with rfl | older
    · exact ⟨forward,le_refl _⟩
    · exact bounded taken older
  · obtain rfl : instant = newest := Option.some.inj top
    exact ⟨_,rfl,le_refl _⟩
  · simp only [List.length_cons]
    omega
  · rcases added other held with rfl | old
    · exact List.mem_cons_self
    · exact List.mem_cons_of_mem _ (listed other old)

theorem Account.spend [DecidableEq Holder] {holder : Holder} {fewer : Holder → Prop}
    (account : Account ttl first expiry instant spent holds) (held : holds holder)
    (less : ∀ other, fewer other → holds other ∧ other ≠ holder) :
    Account ttl first expiry instant (spent+1) fewer := by
  obtain ⟨⟨times,waiting,spaced,bounded,remembered,counted,listed⟩,forward⟩ := account
  refine ⟨⟨times,waiting.erase holder,spaced,bounded,remembered,?_,fun other still => ?_⟩,forward⟩
  · have member := listed holder held
    have shorter := List.length_erase_of_mem member
    have waits := List.length_pos_of_mem member
    omega
  · obtain ⟨also,different⟩ := less other still
    exact (List.mem_erase_of_ne different).mpr (listed other also)

-- The rate: all but one of the spent grants took their full length.
theorem Account.rate [IsOrderedAddMonoid Time] (positive : 0 ≤ ttl)
    (account : Account ttl first expiry instant spent holds) : (spent-1) • ttl ≤ instant-first := by
  obtain ⟨⟨times,waiting,spaced,bounded,_,counted,_⟩,forward⟩ := account
  cases times with
  | nil =>
      obtain rfl : spent = 0 := by simp only [List.length_nil] at counted; omega
      simpa using forward
  | cons newest rest =>
      have fewer : spent-1 ≤ rest.length := by simp only [List.length_cons] at counted; omega
      calc (spent-1) • ttl ≤ rest.length • ttl := nsmul_le_nsmul_left positive fewer
        _ ≤ newest-first := spaced_span spaced fun taken member => (bounded taken member).1
        _ ≤ instant-first := by
          have last := (bounded newest List.mem_cons_self).2
          gcongr

end Accounts
end RestApi.Leases
