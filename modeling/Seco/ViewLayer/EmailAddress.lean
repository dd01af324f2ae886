import Seco.General.Cuts
import Seco.ViewLayer.IssueVC

namespace Seco.FormView

open Cuts

section CharacterClasses

variable {first last a : Char}

theorem mem_chars (h : last.toNat < 0xd800) :
    a ∈ chars first last ↔ first.toNat ≤ a.toNat ∧ a.toNat ≤ last.toNat := by
  simp only [chars, List.mem_map, List.mem_range'_1]
  constructor
  · rintro ⟨n, hn, rfl⟩
    have hv : n.isValidChar := .inl (by omega)
    have he : (Char.ofNat n).toNat = n := by
      rw [Char.ofNat, dif_pos hv]
      rfl
    omega
  · intro ha
    exact ⟨a.toNat, by omega, Char.ofNat_toNat a⟩

theorem mem_chars_upper : a ∈ chars 'A' 'Z' ↔ a.isUpper = true := by
  have hu : a.isUpper = decide ('A'.val ≤ a.val ∧ a.val ≤ 'Z'.val) := rfl
  rw [mem_chars (by decide), hu, decide_eq_true_eq, UInt32.le_iff_toNat_le, UInt32.le_iff_toNat_le]
  exact Iff.rfl

theorem mem_chars_lower : a ∈ chars 'a' 'z' ↔ a.isLower = true := by
  have hl : a.isLower = (decide ('a'.val ≤ a.val) && decide (a.val ≤ 'z'.val)) := rfl
  rw [mem_chars (by decide), hl, Bool.and_eq_true, decide_eq_true_eq, decide_eq_true_eq,
    UInt32.le_iff_toNat_le, UInt32.le_iff_toNat_le]
  exact Iff.rfl

theorem mem_chars_digit : a ∈ chars '0' '9' ↔ a.isDigit = true := by
  have hd : a.isDigit = (decide ('0'.val ≤ a.val) && decide (a.val ≤ '9'.val)) := rfl
  rw [mem_chars (by decide), hd, Bool.and_eq_true, decide_eq_true_eq, decide_eq_true_eq,
    UInt32.le_iff_toNat_le, UInt32.le_iff_toNat_le]
  exact Iff.rfl

theorem isAlpha_iff : a.isAlpha = true ↔ a.isUpper = true ∨ a.isLower = true := by
  have ha : a.isAlpha = (a.isUpper || a.isLower) := rfl
  rw [ha, Bool.or_eq_true]

theorem isAlphanum_iff : a.isAlphanum = true ↔ a.isAlpha = true ∨ a.isDigit = true := by
  have ha : a.isAlphanum = (a.isAlpha || a.isDigit) := rfl
  rw [ha, Bool.or_eq_true]

def isName (a : Char) : Bool := a.isAlphanum || a ∈ ['.', '_', '%', '+', '-']

def isDomain (a : Char) : Bool := a.isAlphanum || a ∈ ['.', '-']

theorem mem_alphabetic_iff : a ∈ alphabetic ↔ a.isAlpha = true := by
  rw [alphabetic, List.mem_append, mem_chars_upper, mem_chars_lower, isAlpha_iff]

theorem mem_localPart_iff : a ∈ localPart ↔ isName a = true := by
  simp only [localPart, List.mem_append, mem_chars_upper, mem_chars_lower, mem_chars_digit,
    isName, isAlphanum_iff, isAlpha_iff, Bool.or_eq_true, decide_eq_true_eq]
  exact or_congr or_right_comm Iff.rfl

theorem mem_domainPart_iff : a ∈ domainPart ↔ isDomain a = true := by
  simp only [domainPart, List.mem_append, mem_chars_upper, mem_chars_lower, mem_chars_digit,
    isDomain, isAlphanum_iff, isAlpha_iff, Bool.or_eq_true, decide_eq_true_eq]

theorem isDomain_of_isAlpha (h : a.isAlpha = true) : isDomain a = true := by
  rw [isDomain, Bool.or_eq_true, isAlphanum_iff]
  exact .inl (.inl h)

end CharacterClasses

section Split

variable {email pre domain top : List Char}

theorem EmailParts.at_not_mem (h : EmailParts email pre domain top) :
    '@' ∉ pre ∧ '@' ∉ domain ++ '.' :: top := by
  have hp : '@' ∉ pre := fun ha => by
    simpa [isName] using mem_localPart_iff.mp (h.pre.2 _ ha)
  have hd : '@' ∉ domain := fun ha => by
    simpa [isDomain] using mem_domainPart_iff.mp (h.domain.2 _ ha)
  have ht : '@' ∉ top := fun ha => by
    simpa using mem_alphabetic_iff.mp (h.top.2.2 _ ha)
  exact ⟨hp, by simp [hd, ht]⟩

theorem EmailParts.dot_not_mem (h : EmailParts email pre domain top) : '.' ∉ top := fun ha => by
  simpa using mem_alphabetic_iff.mp (h.top.2.2 _ ha)

theorem EmailParts.cut_at (h : EmailParts email pre domain top) :
    beforeFirst '@' email = pre ∧ afterFirst '@' email = domain ++ '.' :: top := by
  rw [h.eq, List.append_assoc]
  exact ⟨beforeFirst_cut h.at_not_mem.1, afterFirst_cut h.at_not_mem.1⟩

theorem EmailParts.unique (h : EmailParts email pre domain top) :
    pre = beforeFirst '@' email ∧ domain = beforeLast '.' (afterFirst '@' email) ∧
      top = afterLast '.' (afterFirst '@' email) := by
  obtain ⟨hb, ha⟩ := h.cut_at
  rw [hb, ha]
  obtain ⟨hd, ht⟩ := last_cut domain h.dot_not_mem
  exact ⟨rfl, hd.symm, ht.symm⟩

structure OneSplit (email : List Char) : Prop where
  count : email.count '@' = 1
  pre : beforeFirst '@' email ≠ [] ∧ ∀ a ∈ beforeFirst '@' email, isName a
  dot : '.' ∈ afterFirst '@' email
  domain : beforeLast '.' (afterFirst '@' email) ≠ [] ∧
    ∀ a ∈ beforeLast '.' (afterFirst '@' email), isDomain a
  top : 2 ≤ (afterLast '.' (afterFirst '@' email)).length ∧
    (afterLast '.' (afterFirst '@' email)).length ≤ 64 ∧
    ∀ a ∈ afterLast '.' (afterFirst '@' email), a.isAlpha

theorem EmailParts.oneSplit (h : EmailParts email pre domain top) : OneSplit email := by
  obtain ⟨hb, ha⟩ := h.cut_at
  obtain ⟨hd, ht⟩ := last_cut domain h.dot_not_mem
  refine ⟨?_, ?_, ?_, ?_, ?_⟩
  · rw [h.eq, List.append_assoc, List.count_append, List.count_eq_zero.mpr h.at_not_mem.1,
      List.cons_append, List.count_cons_self, List.count_eq_zero.mpr h.at_not_mem.2]
  · rw [hb]
    exact ⟨h.pre.1, fun a hm => mem_localPart_iff.mp (h.pre.2 a hm)⟩
  · rw [ha]
    simp
  · rw [ha, hd]
    exact ⟨h.domain.1, fun a hm => mem_domainPart_iff.mp (h.domain.2 a hm)⟩
  · rw [ha, ht]
    exact ⟨h.top.1, h.top.2.1, fun a hm => mem_alphabetic_iff.mp (h.top.2.2 a hm)⟩

theorem OneSplit.emailParts (h : OneSplit email) :
    EmailParts email (beforeFirst '@' email) (beforeLast '.' (afterFirst '@' email))
      (afterLast '.' (afterFirst '@' email)) := by
  have hm : '@' ∈ email := List.count_pos_iff.mp (by simp [h.count])
  refine ⟨?_, ⟨h.pre.1, ?_⟩, ⟨h.domain.1, ?_⟩, h.top.1, h.top.2.1, ?_⟩
  · rw [List.append_assoc, List.cons_append, ← cut_last h.dot]
    exact cut_first hm
  · exact fun a ha => mem_localPart_iff.mpr (h.pre.2 a ha)
  · exact fun a ha => mem_domainPart_iff.mpr (h.domain.2 a ha)
  · exact fun a ha => mem_alphabetic_iff.mpr (h.top.2.2 a ha)

theorem oneSplit_iff : OneSplit email ↔ ∃ pre domain top, EmailParts email pre domain top :=
  ⟨fun h => ⟨_, _, _, h.emailParts⟩, fun ⟨_, _, _, h⟩ => h.oneSplit⟩

end Split

section Scan

inductive Scan where
  | fail
  | name (seen : Bool)
  | domain (seen : Bool) (top : Option Nat)
  deriving DecidableEq

def Scan.next : Scan → Char → Scan
  | .fail, _ => .fail
  | .name seen, a =>
    if a = '@' then if seen then .domain false none else .fail
    else if isName a then .name true
    else .fail
  | .domain seen top, a =>
    if a = '.' then .domain true (if seen then some 0 else none)
    else if a.isAlpha then .domain true (top.map (· + 1))
    else if isDomain a then .domain true none
    else .fail

def Scan.accepts : Scan → Bool
  | .domain _ (some n) => 2 ≤ n ∧ n ≤ 64
  | _ => false

def scan (email : String) : Bool := (email.toList.foldl Scan.next (.name false)).accepts

variable {xs : List Char} {a : Char} {seen : Bool}

@[simp] theorem foldl_fail : xs.foldl Scan.next .fail = .fail := by
  induction xs with
  | nil => rfl
  | cons a xs ih => exact ih

theorem foldl_name (h : '@' ∉ xs) : xs.foldl Scan.next (.name seen) =
    if xs.all isName then .name (seen || !xs.isEmpty) else .fail := by
  induction xs generalizing seen with
  | nil => simp
  | cons a xs ih =>
    obtain ⟨ha, hx⟩ := List.ne_and_not_mem_of_not_mem_cons h
    by_cases hn : isName a = true
    · simp [Scan.next, ha.symm, hn, ih hx]
    · simp [Scan.next, ha.symm, hn]

def topLength (xs : List Char) : Option Nat :=
  if '.' ∈ xs ∧ beforeLast '.' xs ≠ [] ∧ (afterLast '.' xs).all Char.isAlpha
  then some (afterLast '.' xs).length else none

theorem topLength_concat_dot (xs : List Char) :
    topLength (xs ++ ['.']) = if xs.isEmpty then none else some 0 := by
  rw [topLength, beforeLast_concat_self, afterLast_concat_self]
  cases xs <;> simp

theorem topLength_concat (h : a ≠ '.') : topLength (xs ++ [a]) =
    if a.isAlpha then (topLength xs).map (· + 1) else none := by
  rw [topLength, topLength, beforeLast_concat h, afterLast_concat h]
  by_cases ha : a.isAlpha = true
  · have hm : '.' ∈ xs ++ [a] ↔ '.' ∈ xs := by simp [h.symm]
    simp only [hm, List.all_append, List.all_cons, List.all_nil, ha, Bool.and_true,
      List.length_append, List.length_singleton, ↓reduceIte]
    split <;> rfl
  · simp [ha]

theorem next_domain (h : isDomain a = true) :
    Scan.next (.domain (!xs.isEmpty) (topLength xs)) a =
      .domain true (topLength (xs ++ [a])) := by
  by_cases hd : a = '.'
  · subst hd
    rw [topLength_concat_dot]
    cases xs <;> simp [Scan.next]
  · rw [topLength_concat hd]
    by_cases ha : a.isAlpha = true
    · simp [Scan.next, hd, ha]
    · simp [Scan.next, hd, ha, h]

theorem next_domain_fail {top : Option Nat} (h : isDomain a = false) :
    Scan.next (.domain seen top) a = .fail := by
  have hd : a ≠ '.' := by
    rintro rfl
    simp [isDomain] at h
  have ha : a.isAlpha = false := by
    by_contra hn
    simp [isDomain_of_isAlpha (by simpa using hn)] at h
  simp [Scan.next, hd, ha, h]

theorem foldl_domain (xs : List Char) : xs.foldl Scan.next (.domain false none) =
    if xs.all isDomain then .domain (!xs.isEmpty) (topLength xs) else .fail := by
  induction xs using List.reverseRecOn with
  | nil => rfl
  | append_singleton xs a ih =>
    rw [List.foldl_concat, ih, List.all_append]
    by_cases hx : xs.all isDomain = true
    · by_cases ha : isDomain a = true
      · simp [hx, ha, next_domain]
      · have hf : isDomain a = false := by simpa using ha
        simp [hx, hf, next_domain_fail]
    · simp [hx, Scan.next]

theorem accepts_topLength : (Scan.domain seen (topLength xs)).accepts = true ↔
    '.' ∈ xs ∧ beforeLast '.' xs ≠ [] ∧ 2 ≤ (afterLast '.' xs).length ∧
      (afterLast '.' xs).length ≤ 64 ∧ ∀ a ∈ afterLast '.' xs, a.isAlpha := by
  rw [topLength]
  split
  · rename_i h
    have ha : ∀ a ∈ afterLast '.' xs, a.isAlpha := List.all_eq_true.mp h.2.2
    simp only [Scan.accepts, decide_eq_true_eq]
    exact ⟨fun hl => ⟨h.1, h.2.1, hl.1, hl.2, ha⟩, fun hl => ⟨hl.2.2.1, hl.2.2.2.1⟩⟩
  · rename_i h
    simp only [Scan.accepts, Bool.false_eq_true, false_iff]
    exact fun hl => h ⟨hl.1, hl.2.1, List.all_eq_true.mpr hl.2.2.2.2⟩

theorem all_isDomain_iff (hd : '.' ∈ xs) (ha : ∀ a ∈ afterLast '.' xs, a.isAlpha) :
    xs.all isDomain = true ↔ ∀ a ∈ beforeLast '.' xs, isDomain a := by
  rw [List.all_eq_true]
  constructor
  · intro h a hb
    rw [cut_last hd] at h
    exact h a (List.mem_append_left _ hb)
  · intro h a hx
    rw [cut_last hd, List.mem_append, List.mem_cons] at hx
    rcases hx with hb | rfl | ht
    · exact h a hb
    · rfl
    · exact isDomain_of_isAlpha (ha a ht)

theorem accepts_domain_iff : (xs.foldl Scan.next (.domain false none)).accepts = true ↔
    '.' ∈ xs ∧ (beforeLast '.' xs ≠ [] ∧ ∀ a ∈ beforeLast '.' xs, isDomain a) ∧
      2 ≤ (afterLast '.' xs).length ∧ (afterLast '.' xs).length ≤ 64 ∧
      ∀ a ∈ afterLast '.' xs, a.isAlpha := by
  rw [foldl_domain]
  constructor
  · intro h
    have hx : xs.all isDomain = true := by
      by_contra hn
      simp [hn, Scan.accepts] at h
    rw [if_pos hx, accepts_topLength] at h
    obtain ⟨hd, hb, hlo, hhi, ha⟩ := h
    exact ⟨hd, ⟨hb, (all_isDomain_iff hd ha).mp hx⟩, hlo, hhi, ha⟩
  · intro ⟨hd, hb, hlo, hhi, ha⟩
    rw [if_pos ((all_isDomain_iff hd ha).mpr hb.2), accepts_topLength]
    exact ⟨hd, hb.1, hlo, hhi, ha⟩

theorem nonempty_name_iff : (!xs.isEmpty && xs.all isName) = true ↔
    xs ≠ [] ∧ ∀ a ∈ xs, isName a := by
  simp

theorem next_at (h : '@' ∉ xs) : (xs.foldl Scan.next (.name false)).next '@' =
    if !xs.isEmpty && xs.all isName then .domain false none else .fail := by
  rw [foldl_name h]
  by_cases hn : xs.all isName = true
  · rw [if_pos hn, hn]
    cases xs <;> rfl
  · rw [if_neg hn]
    simp [Scan.next, hn]

theorem scan_cut {email : String} {pre post : List Char} (h : email.toList = pre ++ '@' :: post)
    (hp : '@' ∉ pre) : scan email = true ↔ (pre ≠ [] ∧ ∀ a ∈ pre, isName a) ∧
      (post.foldl Scan.next (.domain false none)).accepts = true := by
  rw [scan, h, List.foldl_append, List.foldl_cons, next_at hp, ← nonempty_name_iff]
  by_cases hn : (!pre.isEmpty && pre.all isName) = true
  · rw [if_pos hn, and_iff_right hn]
  · rw [if_neg hn, foldl_fail]
    simp only [Scan.accepts, Bool.false_eq_true, false_iff]
    exact fun hc => hn hc.1

theorem scan_no_at {email : String} (h : '@' ∉ email.toList) : scan email = false := by
  rw [scan, foldl_name h]
  split <;> rfl

theorem at_not_mem_of_accepts
    (h : (xs.foldl Scan.next (.domain false none)).accepts = true) : '@' ∉ xs := by
  intro hm
  have hx : ¬ xs.all isDomain = true := fun hall => by
    simpa [isDomain] using List.all_eq_true.mp hall _ hm
  simp [foldl_domain, hx, Scan.accepts] at h

theorem scan_iff (email : String) : scan email = true ↔ OneSplit email.toList := by
  by_cases hm : '@' ∈ email.toList
  · obtain ⟨pre, post, he, hp⟩ := List.eq_append_cons_of_mem hm
    have hb : beforeFirst '@' email.toList = pre := by rw [he, beforeFirst_cut hp]
    have ha : afterFirst '@' email.toList = post := by rw [he, afterFirst_cut hp]
    rw [scan_cut he hp]
    constructor
    · intro ⟨hn, hacc⟩
      obtain ⟨hd, hdom, htop⟩ := accepts_domain_iff.mp hacc
      refine ⟨?_, by rwa [hb], by rwa [ha], by rwa [ha], by rwa [ha]⟩
      rw [he, List.count_append, List.count_eq_zero.mpr hp, List.count_cons_self,
        List.count_eq_zero.mpr (at_not_mem_of_accepts hacc)]
    · intro h
      have hdom := h.domain
      have htop := h.top
      rw [ha] at hdom htop
      exact ⟨hb ▸ h.pre, accepts_domain_iff.mpr ⟨ha ▸ h.dot, hdom, htop⟩⟩
  · rw [scan_no_at hm]
    simp only [Bool.false_eq_true, false_iff]
    intro h
    have := h.count
    rw [List.count_eq_zero.mpr hm] at this
    omega

end Scan

theorem isValidEmail_iff_oneSplit (email : String) :
    (isValidEmail email = true ↔ OneSplit email.toList) ∧
    (∀ pre domain top, EmailParts email.toList pre domain top →
      pre = beforeFirst '@' email.toList ∧
      domain = beforeLast '.' (afterFirst '@' email.toList) ∧
      top = afterLast '.' (afterFirst '@' email.toList)) ∧
    isValidEmail email = scan email ∧
    IssueVC.isValidEmail email = isValidEmail email ∧
    (isValidEmail email = true → email.isEmpty = false) := by
  have hs : isValidEmail email = true ↔ OneSplit email.toList :=
    (isValidEmail_iff email).trans oneSplit_iff.symm
  refine ⟨hs, fun pre domain top h => h.unique, ?_, rfl, not_isEmpty_of_isValidEmail⟩
  exact Bool.eq_iff_iff.mpr (hs.trans (scan_iff email).symm)

section Labels

structure Labelled (email : List Char) (labels : List (List Char)) (top : List Char) : Prop where
  count : email.count '@' = 1
  pre : beforeFirst '@' email ≠ [] ∧ ∀ a ∈ beforeFirst '@' email, isName a
  split : (afterFirst '@' email).splitOn '.' = labels ++ [top]
  labels : labels ≠ [] ∧ labels ≠ [[]] ∧ ∀ label ∈ labels, ∀ a ∈ label, a.isAlphanum ∨ a = '-'
  top : 2 ≤ top.length ∧ top.length ≤ 64 ∧ ∀ a ∈ top, a.isAlpha

variable {email top : List Char} {labels : List (List Char)}

theorem forall_isDomain_iff {xs : List Char} : (∀ a ∈ xs, isDomain a) ↔
    ∀ label ∈ xs.splitOn '.', ∀ a ∈ label, a.isAlphanum ∨ a = '-' := by
  rw [forall_mem_splitOn]
  refine forall₂_congr fun a _ => ?_
  simp only [isDomain, Bool.or_eq_true, decide_eq_true_eq, List.mem_cons, List.not_mem_nil,
    or_false]
  tauto

theorem OneSplit.labelled (h : OneSplit email) :
    Labelled email ((beforeLast '.' (afterFirst '@' email)).splitOn '.')
      (afterLast '.' (afterFirst '@' email)) where
  count := h.count
  pre := h.pre
  split := splitOn_last h.dot
  labels := ⟨List.splitOn_ne_nil _ _, fun hs => h.domain.1 (splitOn_eq_singleton_nil.mp hs),
    forall_isDomain_iff.mp h.domain.2⟩
  top := h.top

theorem Labelled.oneSplit (h : Labelled email labels top) : OneSplit email := by
  have hd : '.' ∈ afterFirst '@' email := by
    by_contra hn
    have hs := h.split
    rw [List.splitOn_eq_singleton hn, ← List.nil_append [afterFirst '@' email]] at hs
    exact h.labels.1 (List.append_inj_left' hs rfl).symm
  have hs := (splitOn_last hd).symm.trans h.split
  have hl := List.append_inj_left' hs rfl
  have ht := List.singleton_inj.mp (List.append_inj_right' hs rfl)
  refine ⟨h.count, h.pre, hd, ⟨?_, ?_⟩, ht ▸ h.top⟩
  · intro hb
    rw [splitOn_eq_singleton_nil.mpr hb] at hl
    exact h.labels.2.1 hl.symm
  · rw [forall_isDomain_iff, hl]
    exact h.labels.2.2

def WellFormed (email : List Char) : Prop :=
  (∀ piece ∈ (beforeFirst '@' email).splitOn '.', piece ≠ []) ∧
  ∀ label ∈ (afterFirst '@' email).splitOn '.',
    label ≠ [] ∧ label.head? ≠ some '-' ∧ label.getLast? ≠ some '-'

theorem isValidEmail_not_wellFormed :
    isValidEmail ".a..b.@-c-..co" = true ∧ ¬ WellFormed ".a..b.@-c-..co".toList ∧
    (beforeFirst '@' ".a..b.@-c-..co".toList).splitOn '.' =
      [[], ['a'], [], ['b'], []] ∧
    (afterFirst '@' ".a..b.@-c-..co".toList).splitOn '.' =
      [['-', 'c', '-'], [], ['c', 'o']] := by
  refine ⟨(isValidEmail_iff _).mpr ⟨".a..b.".toList, "-c-.".toList, "co".toList, by decide,
    ⟨by decide, forall_mem_of_all (by decide)⟩, ⟨by decide, forall_mem_of_all (by decide)⟩,
    by decide, by decide, forall_mem_of_all (by decide)⟩, fun h => ?_, by decide, by decide⟩
  exact h.1 [] (by decide) rfl

theorem isValidEmail_iff_labelled (email : String) :
    (isValidEmail email = true ↔ ∃ labels top, Labelled email.toList labels top) ∧
    ∀ labels top, Labelled email.toList labels top → top ≠ [] ∧ '-' ∉ top := by
  refine ⟨?_, fun labels top h => ⟨?_, fun hm => ?_⟩⟩
  · rw [isValidEmail_iff, ← oneSplit_iff]
    exact ⟨fun h => ⟨_, _, h.labelled⟩, fun ⟨_, _, h⟩ => h.oneSplit⟩
  · rintro rfl
    simpa using h.top.1
  · simpa using h.top.2.2 _ hm

end Labels

end Seco.FormView
