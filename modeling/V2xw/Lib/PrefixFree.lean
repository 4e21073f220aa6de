import Mathlib.Data.List.Basic
import Mathlib.Logic.Function.Basic

/-!
# Prefix-free codes

A code writes each value as a word. It is prefix free if the start of a text tells which word it
starts with: then texts are read without separators, and no word is a proper beginning of another.
Most formats are put together from such codes, piece after piece.

## Main definitions

* `PrefixFree` — the codes whose words can be told from the start of a text.
* `PrefixFree.read` — the value a word stands for.

## Main results

* `PrefixFree.pair`, `PrefixFree.sum`, `PrefixFree.terminated`, `PrefixFree.option` — codes put
  together.
* `PrefixFree.prefix_of_flatMap` — a text that starts another is its first words.
-/

/-- The word a text starts with, and what follows it, can be told from the text. -/
def PrefixFree {α β : Type*} (p : α → List β) : Prop :=
  ∀ ⦃a b s t⦄, p a ++ s = p b ++ t → a = b ∧ s = t

namespace PrefixFree

variable {α β γ : Type*} {p : α → List β} {q : γ → List β}

lemma injective (hp : PrefixFree p) : Function.Injective p := by
  intro a b h
  exact (hp (congrArg (· ++ []) h)).1

lemma eq_of_append (hp : PrefixFree p) {a b : α} {s : List β} (h : p a ++ s = p b) :
    a = b ∧ s = [] := by
  refine hp ?_
  rw [h, List.append_nil]

lemma of_reader {r : List β → Option (α × List β)} (h : ∀ a t, r (p a ++ t) = some (a, t)) :
    PrefixFree p := by
  intro a b s t hst
  have hr := h a s
  rw [hst, h b t, Option.some.injEq, Prod.mk.injEq] at hr
  exact ⟨hr.1.symm, hr.2.symm⟩

/-! ## Codes put together -/

lemma after (hp : PrefixFree p) (w : List β) : PrefixFree fun a => w ++ p a := by
  intro a b s t h
  refine hp (List.append_cancel_left (?_ : w ++ _ = w ++ _))
  rw [← List.append_assoc, ← List.append_assoc, h]

lemma before (hp : PrefixFree p) (w : List β) : PrefixFree fun a => p a ++ w := by
  intro a b s t h
  rw [List.append_assoc, List.append_assoc] at h
  obtain ⟨hab, hst⟩ := hp h
  exact ⟨hab, List.append_cancel_left hst⟩

lemma pair (hp : PrefixFree p) (hq : PrefixFree q) :
    PrefixFree fun x : α × γ => p x.1 ++ q x.2 := by
  rintro ⟨a, c⟩ ⟨b, d⟩ s t h
  rw [List.append_assoc, List.append_assoc] at h
  obtain ⟨rfl, hrest⟩ := hp h
  obtain ⟨rfl, hst⟩ := hq hrest
  exact ⟨rfl, hst⟩

lemma comp (hp : PrefixFree p) {f : γ → α} (hf : Function.Injective f) :
    PrefixFree fun c => p (f c) := by
  intro c d s t h
  obtain ⟨hcd, hst⟩ := hp h
  exact ⟨hf hcd, hst⟩

lemma sum (hp : PrefixFree p) (hq : PrefixFree q) (hne : ∀ a c s t, p a ++ s ≠ q c ++ t) :
    PrefixFree (Sum.elim p q) := by
  rintro (a | c) (b | d) s t h
  · obtain ⟨rfl, hst⟩ := hp h
    exact ⟨rfl, hst⟩
  · exact absurd h (hne a d s t)
  · exact absurd h.symm (hne b c t s)
  · obtain ⟨rfl, hst⟩ := hq h
    exact ⟨rfl, hst⟩

/-- No word of the code starts with the symbol `x`, or is empty. -/
def Avoids (p : α → List β) (x : β) : Prop := ∀ a, ∃ b w, p a = b :: w ∧ b ≠ x

lemma Avoids.ne {x : β} (h : Avoids p x) (a : α) (s t : List β) : p a ++ s ≠ x :: t := by
  obtain ⟨b, w, hw, hb⟩ := h a
  rw [hw, List.cons_append]
  exact fun heq => hb (List.cons.inj heq).1

/-- A list of words, ended by a symbol that starts none of them. -/
lemma terminated (hp : PrefixFree p) {stop : β} (hstop : Avoids p stop) :
    PrefixFree fun as : List α => as.flatMap p ++ [stop] := by
  intro as
  induction as with
  | nil =>
    rintro (_ | ⟨b, bs⟩) s t h
    · exact ⟨rfl, List.append_cancel_left h⟩
    · simp only [List.flatMap_cons, List.append_assoc] at h
      exact absurd h.symm (hstop.ne b _ _)
  | cons a as ih =>
    rintro (_ | ⟨b, bs⟩) s t h
    · simp only [List.flatMap_cons, List.append_assoc] at h
      exact absurd h (hstop.ne a _ _)
    · simp only [List.flatMap_cons, List.append_assoc] at h
      obtain ⟨rfl, hrest⟩ := hp h
      simp only [← List.append_assoc] at hrest
      obtain ⟨rfl, hst⟩ := ih hrest
      exact ⟨rfl, hst⟩

lemma option (hp : PrefixFree p) {x : β} (w : List β) (hx : Avoids p x) :
    PrefixFree fun o : Option α => o.elim (x :: w) p := by
  rintro (_ | a) (_ | b) s t h
  · exact ⟨rfl, List.append_cancel_left h⟩
  · exact absurd h.symm (hx.ne b _ _)
  · exact absurd h (hx.ne a _ _)
  · obtain ⟨rfl, hst⟩ := hp h
    exact ⟨rfl, hst⟩

/-! ## Texts -/

lemma prefix_of_flatMap (hp : PrefixFree p) (hne : ∀ a, p a ≠ []) {as : List α} :
    ∀ {bs : List α} {s : List β}, as.flatMap p ++ s = bs.flatMap p →
      ∃ cs, bs = as ++ cs ∧ s = cs.flatMap p := by
  induction as with
  | nil => exact fun h => ⟨_, rfl, h⟩
  | cons a as ih =>
    rintro (_ | ⟨b, bs⟩) s h
    · exact absurd (List.append_eq_nil_iff.1 (List.append_eq_nil_iff.1 h).1).1 (hne a)
    · rw [List.flatMap_cons, List.flatMap_cons, List.append_assoc] at h
      obtain ⟨rfl, hrest⟩ := hp h
      obtain ⟨cs, rfl, hs⟩ := ih hrest
      exact ⟨cs, rfl, hs⟩

open Classical in
/-- The value a word stands for. -/
noncomputable def read (p : α → List β) (w : List β) : Option α :=
  if h : ∃ a, p a = w then some h.choose else none

lemma read_eq_some (hp : PrefixFree p) {w : List β} {a : α} : read p w = some a ↔ p a = w := by
  unfold read
  split
  case isTrue h =>
    rw [Option.some.injEq]
    refine ⟨fun ha => ha ▸ h.choose_spec, fun ha => hp.injective ?_⟩
    rw [h.choose_spec, ha]
  case isFalse h => exact ⟨nofun, fun ha => absurd ⟨a, ha⟩ h⟩

end PrefixFree
