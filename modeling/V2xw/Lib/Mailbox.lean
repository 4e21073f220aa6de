import Mathlib.Algebra.BigOperators.Group.Finset.Basic
import Mathlib.Algebra.Order.Ring.Nat
import Mathlib.Data.Multiset.AddSub
import Mathlib.Data.Multiset.Filter
import V2xw.Lib.OrdMap

/-!
# Entities that exchange messages

A system of entities that hold a state and exchange messages through a bag: an event from outside
changes the state and posts messages, and any message of the bag may be handled at any time, which
changes the state and posts further messages. Posts may be lost, except where the system vouches
for them. What holds over every order of the messages is an invariant of the state and the bag
together.

A system goes quiet if its state has a potential and its messages have weights such that handling a
message costs more than what it posts and what the potential gains.

## Main definitions

* `Mailbox` — the events, the reactions and the posts that are not lost.
* `Mailbox.Step` — one event, or the handling of one message.
* `Mailbox.Keeps` — the guarded steps of a system preserve a property.
* `OrdMap.total` — the sum of a potential over the values of a map.
* `Mailbox.load` — the potential of a state with the weights of the messages in flight.

## Main results

* `Mailbox.Keeps.of_forall` — the rule for a property of the state together with a property of
  every single message.
* `OrdMap.total_insert` — replacing a value changes the sum by the change of the value.
* `Mailbox.load_lt` — handling a message that pays for what it posts lowers the load.
-/

/-- A system with states `σ`, messages `μ` and events `ι`. -/
structure Mailbox (σ μ ι : Type*) where
  /-- The state after an event and what it posts. -/
  act : ι → σ → σ × List μ
  /-- The states in which handling a message may end, and what it posts. -/
  react : μ → σ → σ → List μ → Prop
  /-- The messages whose handling loses none of its posts. -/
  vouched : μ → List μ → Prop

namespace Mailbox

variable {σ μ ι : Type*}

/-- One step of a system: an event, or a message taken out of the bag and handled, with posts lost
only where they are not vouched for. -/
inductive Step (m : Mailbox σ μ ι) : ι ⊕ μ → σ → Multiset μ → σ → Multiset μ → Prop
  | act (e : ι) (s : σ) (b : Multiset μ) :
      Step m (.inl e) s b (m.act e s).1 ((m.act e s).2 + b)
  | react {p : μ} {s s' : σ} {b : Multiset μ} {posts kept : List μ} :
      m.react p s s' posts → kept.Sublist posts → (m.vouched p posts → kept = posts) →
      Step m (.inr p) s (p ::ₘ b) s' (kept + b)

/-- The steps that meet the condition `G` preserve `Q`. -/
def Keeps (m : Mailbox σ μ ι) (G : ι ⊕ μ → σ → Multiset μ → Prop) (Q : σ → Multiset μ → Prop) :
    Prop :=
  ∀ {e s b s' b'}, m.Step e s b s' b' → G e s b → Q s b → Q s' b'

/-- **Local invariants.** A property of the state together with a property of every message in the
bag is preserved if events and reactions establish it for the new state and the new posts, and do
not spoil it for the messages that stay. -/
lemma Keeps.of_forall {m : Mailbox σ μ ι} {G : ι ⊕ μ → σ → Multiset μ → Prop} {I : σ → Prop}
    {L : σ → μ → Prop}
    (hact : ∀ {e s b}, G (.inl e) s b → I s → (∀ p ∈ b, L s p) →
      I (m.act e s).1 ∧ (∀ p ∈ (m.act e s).2, L (m.act e s).1 p) ∧ ∀ p ∈ b, L (m.act e s).1 p)
    (hreact : ∀ {p s s' posts b}, m.react p s s' posts → G (.inr p) s (p ::ₘ b) → I s → L s p →
      I s' ∧ (∀ q ∈ posts, L s' q) ∧ ∀ q ∈ b, L s q → L s' q) :
    m.Keeps G fun s b => I s ∧ ∀ p ∈ b, L s p := by
  rintro e s b s' b' hstep hG ⟨hI, hL⟩
  cases hstep with
  | act e =>
    obtain ⟨hI', hnew, hold⟩ := hact hG hI hL
    refine ⟨hI', fun p hp => ?_⟩
    rcases Multiset.mem_add.1 hp with hp | hp
    · exact hnew p (Multiset.mem_coe.1 hp)
    · exact hold p hp
  | react hr hsub _ =>
    obtain ⟨hI', hnew, hold⟩ := hreact hr hG hI (hL _ (Multiset.mem_cons_self _ _))
    refine ⟨hI', fun p hp => ?_⟩
    rcases Multiset.mem_add.1 hp with hp | hp
    · exact hnew p (hsub.subset (Multiset.mem_coe.1 hp))
    · exact hold p hp (hL p (Multiset.mem_cons_of_mem hp))

end Mailbox

/-! ## Potentials -/

namespace OrdMap

variable {κ ν : Type} [LinearOrder κ]

/-- The sum of a potential over the values of a map. -/
def total (f : ν → ℕ) (m : OrdMap κ ν) : ℕ := ∑ k ∈ keySet m, m[k]?.elim 0 f

/-- A replaced value is the only one whose potential changes. -/
lemma total_insert (f : ν → ℕ) {m : OrdMap κ ν} {k : κ} {v : ν} (h : m[k]? = some v) (w : ν) :
    total f (m.insert k w) + f v = total f m + f w := by
  have hkeys : keySet (m.insert k w) = keySet m := by
    ext a
    rw [mem_keySet, mem_keySet, get_insert]
    split_ifs with ha
    · rw [← ha, h]
      simp
    · rfl
  have hk : k ∈ keySet m := mem_keySet.2 ⟨v, h⟩
  have hrest : ∀ a ∈ (keySet m).erase k, (m.insert k w)[a]?.elim 0 f = m[a]?.elim 0 f := by
    intro a ha
    rw [get_insert, if_neg (Finset.ne_of_mem_erase ha).symm]
  unfold total
  rw [hkeys, ← Finset.add_sum_erase _ _ hk, ← Finset.add_sum_erase (keySet m) _ hk,
    Finset.sum_congr rfl hrest, get_insert, if_pos rfl, h, Option.elim_some, Option.elim_some]
  omega

end OrdMap

namespace Mailbox

variable {σ μ : Type*}

/-- The potential of a state with the weights of the messages in flight. -/
def load (potential : σ → ℕ) (weight : μ → ℕ) (s : σ) (b : Multiset μ) : ℕ :=
  potential s + (b.map weight).sum

/-- **Paying for posts.** Handling a message lowers the load if the weight of the message covers the
weights of what it posts and what the potential gains. -/
lemma load_lt {potential : σ → ℕ} {weight : μ → ℕ} {p : μ} {s s' : σ} {posts : List μ}
    (h : potential s' + (posts.map weight).sum < potential s + weight p) (b : Multiset μ) :
    load potential weight s' (posts + b) < load potential weight s (p ::ₘ b) := by
  unfold load
  rw [Multiset.map_add, Multiset.sum_add, Multiset.map_cons, Multiset.sum_cons, Multiset.map_coe,
    Multiset.sum_coe]
  omega

end Mailbox
