import Mathlib.Data.List.DropRight
import Mathlib.Tactic.Common

namespace Cuts

variable {α : Type} [DecidableEq α]

def beforeFirst (a : α) (xs : List α) : List α := xs.takeWhile (· ≠ a)

def afterFirst (a : α) (xs : List α) : List α := (xs.dropWhile (· ≠ a)).tail

def beforeLast (a : α) (xs : List α) : List α := (xs.rdropWhile (· ≠ a)).dropLast

def afterLast (a : α) (xs : List α) : List α := xs.rtakeWhile (· ≠ a)

variable {a b : α} {pre post xs : List α}

theorem beforeFirst_cut (h : a ∉ pre) : beforeFirst a (pre ++ a :: post) = pre := by
  induction pre with
  | nil => simp [beforeFirst]
  | cons b pre ih =>
    obtain ⟨hb, hp⟩ := List.ne_and_not_mem_of_not_mem_cons h
    simpa [beforeFirst, hb.symm] using ih hp

theorem afterFirst_cut (h : a ∉ pre) : afterFirst a (pre ++ a :: post) = post := by
  induction pre with
  | nil => simp [afterFirst]
  | cons b pre ih =>
    obtain ⟨hb, hp⟩ := List.ne_and_not_mem_of_not_mem_cons h
    simpa [afterFirst, hb.symm] using ih hp

theorem cut_first (h : a ∈ xs) : xs = beforeFirst a xs ++ a :: afterFirst a xs := by
  obtain ⟨pre, post, rfl, hp⟩ := List.eq_append_cons_of_mem h
  rw [beforeFirst_cut hp, afterFirst_cut hp]

theorem beforeLast_concat_self : beforeLast a (xs ++ [a]) = xs := by
  rw [beforeLast, List.rdropWhile_concat_neg _ _ _ (by simp), List.dropLast_concat]

theorem afterLast_concat_self : afterLast a (xs ++ [a]) = [] := by
  rw [afterLast, List.rtakeWhile_concat_neg _ _ _ (by simp)]

theorem beforeLast_concat (h : b ≠ a) : beforeLast a (xs ++ [b]) = beforeLast a xs := by
  rw [beforeLast, List.rdropWhile_concat_pos _ _ _ (by simpa using h), beforeLast]

theorem afterLast_concat (h : b ≠ a) : afterLast a (xs ++ [b]) = afterLast a xs ++ [b] := by
  rw [afterLast, List.rtakeWhile_concat_pos _ _ _ (by simpa using h), afterLast]

theorem last_cut (pre : List α) (h : a ∉ post) :
    beforeLast a (pre ++ a :: post) = pre ∧ afterLast a (pre ++ a :: post) = post := by
  induction post using List.reverseRecOn with
  | nil => exact ⟨beforeLast_concat_self, afterLast_concat_self⟩
  | append_singleton post b ih =>
    have hb : b ≠ a := by
      rintro rfl
      simp at h
    have hp : a ∉ post := fun ha => h (by simp [ha])
    rw [← List.cons_append, ← List.append_assoc, beforeLast_concat hb, afterLast_concat hb]
    exact ⟨(ih hp).1, congrArg (· ++ [b]) (ih hp).2⟩

theorem not_mem_afterLast : a ∉ afterLast a xs := fun h => by
  simpa using List.mem_rtakeWhile_imp h

theorem cut_last (h : a ∈ xs) : xs = beforeLast a xs ++ a :: afterLast a xs := by
  induction xs using List.reverseRecOn with
  | nil => simp at h
  | append_singleton xs b ih =>
    by_cases hb : b = a
    · subst hb
      rw [beforeLast_concat_self, afterLast_concat_self]
    · rw [beforeLast_concat hb, afterLast_concat hb, ← List.cons_append, ← List.append_assoc,
        ← ih (by simpa [Ne.symm hb] using h)]

theorem splitOn_last (h : a ∈ xs) :
    xs.splitOn a = (beforeLast a xs).splitOn a ++ [afterLast a xs] := by
  conv_lhs => rw [cut_last h]
  rw [List.splitOn_append_cons_self, List.splitOn_eq_singleton not_mem_afterLast]

theorem splitOn_eq_singleton_nil : xs.splitOn a = [[]] ↔ xs = [] := by
  constructor
  · intro h
    have hi : [a].intercalate (xs.splitOn a) = xs := List.intercalate_splitOn a
    rw [← hi, h]
    rfl
  · rintro rfl
    rfl

theorem forall_mem_splitOn {p : α → Prop} :
    (∀ piece ∈ xs.splitOn a, ∀ b ∈ piece, p b) ↔ ∀ b ∈ xs, b ≠ a → p b := by
  induction xs with
  | nil => simp
  | cons c xs ih =>
    rw [List.splitOn_cons_eq_if_modifyHead, List.forall_mem_cons, ← ih]
    by_cases hc : c = a
    · simp [hc]
    · obtain ⟨first, rest, hs⟩ := List.exists_cons_of_ne_nil (List.splitOn_ne_nil a xs)
      simp [hc, hs, and_assoc]

end Cuts
