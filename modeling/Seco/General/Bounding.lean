import Mathlib.Data.List.Induction
import Mathlib.Order.Bounds.Basic

namespace Bounding

variable {R : Type}

def join (isNull : R → Bool) (union : R → R → R) (zoom rect : R) : R :=
  if isNull zoom then rect else union zoom rect

def bounding (null : R) (isNull : R → Bool) (union : R → R → R) (rects : List R) : R :=
  rects.foldl (join isNull union) null

variable {null : R} {isNull : R → Bool} {union : R → R → R} {rects : List R} {zoom rect : R}

theorem bounding_concat : bounding null isNull union (rects ++ [rect]) =
    join isNull union (bounding null isNull union rects) rect := List.foldl_append

variable [PartialOrder R]

structure Laws (null : R) (isNull : R → Bool) (union : R → R → R) : Prop where
  isNull_iff : ∀ r, isNull r = true ↔ r = null
  le_null : ∀ r, r ≤ null → r = null
  isLUB_union : ∀ r s, r ≠ null → s ≠ null → IsLUB {r, s} (union r s)

theorem Laws.join_null (h : Laws null isNull union) : join isNull union null rect = rect := by
  rw [join, if_pos ((h.isNull_iff null).mpr rfl)]

theorem Laws.isLUB_join (h : Laws null isNull union) {rs : Set R} (hz : zoom ≠ null)
    (hr : rect ≠ null) (hl : IsLUB rs zoom) :
    IsLUB (insert rect rs) (join isNull union zoom rect) := by
  have hn : ¬ isNull zoom = true := fun hn => hz ((h.isNull_iff zoom).mp hn)
  have hu := h.isLUB_union zoom rect hz hr
  rw [join, if_neg hn]
  constructor
  · rintro r (rfl | hrs)
    · exact hu.1 (by simp)
    · exact (hl.1 hrs).trans (hu.1 (by simp))
  · intro r hub
    have hzr : zoom ≤ r := hl.2 fun s hs => hub (Set.mem_insert_of_mem rect hs)
    exact hu.2 (by simpa using ⟨hzr, hub (Set.mem_insert rect rs)⟩)

theorem Laws.bounding_spec (h : Laws null isNull union) (hne : rects ≠ [])
    (hr : ∀ rect ∈ rects, rect ≠ null) :
    bounding null isNull union rects ≠ null ∧
      IsLUB {r | r ∈ rects} (bounding null isNull union rects) := by
  induction rects using List.reverseRecOn with
  | nil => exact absurd rfl hne
  | append_singleton rects rect ih =>
    have hrect : rect ≠ null := hr rect (by simp)
    have hset : {r | r ∈ rects ++ [rect]} = insert rect {r | r ∈ rects} := by
      ext r
      simp [or_comm]
    rw [bounding_concat, hset]
    by_cases hn : rects = []
    · subst hn
      have hj : join isNull union (bounding null isNull union []) rect = rect := h.join_null
      rw [hj]
      exact ⟨hrect, by simp⟩
    · obtain ⟨hz, hl⟩ := ih hn fun r hm => hr r (by simp [hm])
      have hj := h.isLUB_join hz hrect hl
      refine ⟨fun he => hrect (h.le_null rect ?_), hj⟩
      rw [← he]
      exact hj.1 (Set.mem_insert rect _)

theorem Laws.bounding_congr (h : Laws null isNull union) {rects' : List R} (hne : rects ≠ [])
    (hr : ∀ rect ∈ rects, rect ≠ null) (hm : ∀ r, r ∈ rects' ↔ r ∈ rects) :
    bounding null isNull union rects' = bounding null isNull union rects := by
  have hne' : rects' ≠ [] := by
    obtain ⟨r, hr⟩ := List.exists_mem_of_ne_nil rects hne
    exact List.ne_nil_of_mem ((hm r).mpr hr)
  have hs : {r | r ∈ rects'} = {r | r ∈ rects} := Set.ext hm
  have hl := (h.bounding_spec hne' fun r hr' => hr r ((hm r).mp hr')).2
  exact (hs ▸ hl).unique (h.bounding_spec hne hr).2

end Bounding
