import Mathlib.Computability.RegularExpressions

namespace RegularExpression

variable {α : Type}

def oneOf (cs : List α) : RegularExpression α := cs.foldr (fun a P => char a + P) 0

def oneOrMore (P : RegularExpression α) : RegularExpression α := P * star P

def between (lo hi : ℕ) (P : RegularExpression α) : RegularExpression α :=
  P ^ lo * (1 + P) ^ (hi - lo)

theorem mem_oneOf {cs : List α} {x : List α} :
    x ∈ (oneOf cs).matches' ↔ ∃ a ∈ cs, x = [a] := by
  induction cs with
  | nil => simp [oneOf, Language.notMem_zero]
  | cons c cs ih =>
    change x ∈ (char c + oneOf cs).matches' ↔ _
    rw [matches'_add, matches'_char, Language.mem_add, ih, List.exists_mem_cons_iff]
    rfl

theorem mem_oneOf_pow {cs : List α} {n : ℕ} {x : List α} :
    x ∈ (oneOf cs).matches' ^ n ↔ x.length = n ∧ ∀ a ∈ x, a ∈ cs := by
  induction n generalizing x with
  | zero =>
    rw [pow_zero, Language.mem_one]
    constructor
    · rintro rfl
      simp
    · intro h
      exact List.length_eq_zero_iff.mp h.1
  | succ n ih =>
    rw [pow_succ', Language.mem_mul]
    constructor
    · rintro ⟨_, hy, z, hz, rfl⟩
      obtain ⟨a, ha, rfl⟩ := mem_oneOf.mp hy
      obtain ⟨hn, hall⟩ := ih.mp hz
      simpa [hn, ha] using hall
    · intro ⟨hn, hall⟩
      cases x with
      | nil => simp at hn
      | cons a x =>
        refine ⟨[a], mem_oneOf.mpr ⟨a, hall a (by simp), rfl⟩, x, ih.mpr ⟨?_, ?_⟩, rfl⟩
        · simpa using hn
        · exact fun b hb => hall b (by simp [hb])

theorem mem_oneOf_star {cs : List α} {x : List α} :
    x ∈ (star (oneOf cs)).matches' ↔ ∀ a ∈ x, a ∈ cs := by
  rw [matches'_star, Language.kstar_eq_iSup_pow, Language.mem_iSup]
  simp only [mem_oneOf_pow, exists_and_right, exists_eq', true_and]

theorem mem_oneOrMore_oneOf {cs : List α} {x : List α} :
    x ∈ (oneOrMore (oneOf cs)).matches' ↔ x ≠ [] ∧ ∀ a ∈ x, a ∈ cs := by
  rw [oneOrMore, matches'_mul, Language.mem_mul]
  constructor
  · rintro ⟨_, hy, z, hz, rfl⟩
    obtain ⟨a, ha, rfl⟩ := mem_oneOf.mp hy
    simpa [ha] using mem_oneOf_star.mp hz
  · intro ⟨hn, hall⟩
    cases x with
    | nil => simp at hn
    | cons a x =>
      refine ⟨[a], mem_oneOf.mpr ⟨a, hall a (by simp), rfl⟩, x, mem_oneOf_star.mpr ?_, rfl⟩
      exact fun b hb => hall b (by simp [hb])

theorem mem_optional_oneOf_pow {cs : List α} {n : ℕ} {x : List α} :
    x ∈ (1 + (oneOf cs).matches') ^ n ↔ x.length ≤ n ∧ ∀ a ∈ x, a ∈ cs := by
  induction n generalizing x with
  | zero =>
    rw [pow_zero, Language.mem_one]
    constructor
    · rintro rfl
      simp
    · intro h
      exact List.length_eq_zero_iff.mp (Nat.le_zero.mp h.1)
  | succ n ih =>
    rw [pow_succ', add_mul, one_mul, Language.mem_add, Language.mem_mul, ih]
    constructor
    · rintro (⟨hn, hall⟩ | ⟨_, hy, z, hz, rfl⟩)
      · exact ⟨by omega, hall⟩
      · obtain ⟨a, ha, rfl⟩ := mem_oneOf.mp hy
        obtain ⟨hn, hall⟩ := ih.mp hz
        refine ⟨by simpa using hn, ?_⟩
        simpa [ha] using hall
    · intro ⟨hn, hall⟩
      cases x with
      | nil => exact .inl ⟨Nat.zero_le n, hall⟩
      | cons a x =>
        refine .inr ⟨[a], mem_oneOf.mpr ⟨a, hall a (by simp), rfl⟩, x, ih.mpr ⟨?_, ?_⟩, rfl⟩
        · simpa using hn
        · exact fun b hb => hall b (by simp [hb])

theorem mem_between_oneOf {cs : List α} {lo hi : ℕ} (h : lo ≤ hi) {x : List α} :
    x ∈ (between lo hi (oneOf cs)).matches' ↔
      lo ≤ x.length ∧ x.length ≤ hi ∧ ∀ a ∈ x, a ∈ cs := by
  rw [between, matches'_mul, matches'_pow, matches'_pow, matches'_add, matches'_epsilon,
    Language.mem_mul]
  constructor
  · rintro ⟨y, hy, z, hz, rfl⟩
    obtain ⟨hn, hyall⟩ := mem_oneOf_pow.mp hy
    obtain ⟨hm, hzall⟩ := mem_optional_oneOf_pow.mp hz
    refine ⟨?_, ?_, ?_⟩
    · simp [hn]
    · simp only [List.length_append]
      omega
    · intro a ha
      exact (List.mem_append.mp ha).elim (hyall a) (hzall a)
  · intro ⟨hlo, hhi, hall⟩
    refine ⟨x.take lo, mem_oneOf_pow.mpr ⟨?_, ?_⟩, x.drop lo,
      mem_optional_oneOf_pow.mpr ⟨?_, ?_⟩, List.take_append_drop lo x⟩
    · simpa using hlo
    · exact fun a ha => hall a (List.mem_of_mem_take ha)
    · simp only [List.length_drop]
      omega
    · exact fun a ha => hall a (List.mem_of_mem_drop ha)

end RegularExpression
