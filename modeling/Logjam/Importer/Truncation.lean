import Logjam.Importer.RequestWriter

/-! Long strings are cut in front of a character that does not fit as a whole. Where a character of several
bytes ends right at the limit, it is mistaken for an invalid one. -/
namespace Logjam.Importer
open Logjam.Library

variable {str : Bytes} {n : ℕ}

/-- What limit_json_string_value_length makes: the copy, if there is one, and the length that is returned. -/
def limitedCopy (str : Bytes) : Except Fault (Option Bytes × ℤ) :=
  if str.length ≤ maxStringValueSize+16 then .ok (none,str.length)
  else do
    let n ← findUtf8Offset str maxStringValueSize
    if n < 0 then .error .outOfBounds
    else return (some (str.take n.toNat ++ lit " ...[TRUNCATED]"),n+15)

/-! The masks. -/

lemma mask_lead (b : UInt8) : 128 ≤ b.toNat → (b &&& 0x40 ≠ 0 ↔ ¬Continuation b) := by
  revert b
  exact forall_uint8 (by decide +kernel)

lemma mask_three (b : UInt8) : b &&& 0xE0 = 0xE0 ↔ ¬Continuation b ∧ 3 ≤ leadSize b := by
  revert b
  exact forall_uint8 (by decide +kernel)

lemma mask_four (b : UInt8) : b &&& 0xF0 = 0xF0 ↔ ¬Continuation b ∧ 4 ≤ leadSize b := by
  revert b
  exact forall_uint8 (by decide +kernel)

lemma leadSize_of_low (b : UInt8) (h : b.toNat < 128) : leadSize b = 1 := if_pos h

/-! The search. -/

/-- The search in terms of characters. -/
lemma findUtf8Offset_eq (hn : 3 < n) :
    findUtf8Offset str n =
      if (str.getD (n-1) 0).toNat < 128 then .ok n
      else if ¬Continuation (str.getD (n-1) 0) then .ok (n-1)
      else if ¬Continuation (str.getD (n-2) 0) ∧ 3 ≤ leadSize (str.getD (n-2) 0) then .ok (n-2)
      else if ¬Continuation (str.getD (n-3) 0) ∧ 4 ≤ leadSize (str.getD (n-3) 0) then .ok (n-3)
      else .ok (-asciiBefore str (n-3)) := by
  have hone : n-3+2 = n-1 := by omega
  have htwo : n-3+1 = n-2 := by omega
  rw [findUtf8Offset,if_neg (by omega)]
  dsimp only
  simp only [hone,htwo,Nat.add_zero]
  by_cases hhigh : 128 ≤ (str.getD (n-1) 0).toNat
  · simp only [mask_high,mask_lead _ hhigh,mask_three,mask_four,if_pos hhigh,if_neg hhigh.not_gt]
  · rw [if_neg (by rwa [mask_high]),if_pos (by omega)]

/-- The byte at the limit is not the last one of a character of several bytes. -/
def NoneEndsAt (str : Bytes) (n : ℕ) : Prop := Continuation (str.getD (n-1) 0) → Continuation (str.getD n 0)

lemma findUtf8Offset_of_noneEndsAt (hutf : Utf8 str) (hn : 3 < n) (hlong : n < str.length) (hnone : NoneEndsAt str n) :
    ∃ m : ℕ,findUtf8Offset str n = .ok m ∧ n-3 ≤ m ∧ m ≤ n ∧ Utf8 (str.take m) := by
  rw [findUtf8Offset_eq hn]
  split_ifs with hlow hin hthree hfour
  · -- behind an ASCII character
    have hnot : ¬Continuation (str.getD (n-1) 0) := fun h => absurd h.1 (by omega)
    have hsize := leadSize_of_low _ hlow
    have hnext := hutf.continuation_iff (by omega) hnot one_pos hsize.ge
    rw [hsize,Nat.sub_add_cancel (by omega)] at hnext
    exact ⟨n,rfl,by omega,le_rfl,(hutf.cut fun h => absurd (hnext.mp h) (lt_irrefl 1)).1⟩
  · exact ⟨n-2,by rw [Nat.cast_sub (by omega)]; rfl,by omega,by omega,(hutf.cut hthree.1).1⟩
  · exact ⟨n-3,by rw [Nat.cast_sub (by omega)]; rfl,by omega,by omega,(hutf.cut hfour.1).1⟩
  · -- the character of the byte behind the limit starts at none of the places that were looked at
    have hcont := hnone hin
    obtain ⟨j,hj,hnot,hsize⟩ := hutf.exists_lead hlong
    have hmax := leadSize_le_four (str.getD j 0)
    obtain rfl | rfl | rfl | rfl : j = n ∨ j = n-1 ∨ j = n-2 ∨ j = n-3 := by omega
    · exact absurd hcont hnot
    · exact absurd hin hnot
    · exact absurd ⟨hnot,by omega⟩ hthree
    · exact absurd ⟨hnot,by omega⟩ hfour
  · exact ⟨n-1,by rw [Nat.cast_sub (by omega)]; rfl,by omega,by omega,(hutf.cut hin).1⟩

lemma findUtf8Offset_of_complete (hutf : Utf8 str) (hn : 3 < n) (hlong : n < str.length) (hends : ¬NoneEndsAt str n) :
    findUtf8Offset str n = .ok (-asciiBefore str (n-3)) := by
  obtain ⟨hcont,hnext⟩ := Classical.not_imp.mp hends
  -- a longer character in front of the limit would go on behind it
  have hlong (k : ℕ) (hk : 2 ≤ k) (hkn : k ≤ 3) :
      ¬(¬Continuation (str.getD (n-k) 0) ∧ k+1 ≤ leadSize (str.getD (n-k) 0)) := by
    rintro ⟨hnot,hsize⟩
    have hiff := hutf.continuation_iff (by omega) hnot (by omega : 0 < k) (by omega)
    rw [Nat.sub_add_cancel (by omega)] at hiff
    exact hnext (hiff.mpr hsize)
  rw [findUtf8Offset_eq hn,if_neg (not_lt.mpr hcont.1),if_neg (not_not.mpr hcont),if_neg (hlong 2 le_rfl (by decide)),
    if_neg (hlong 3 (by decide) le_rfl)]

/-! The copy. -/

/-- A copy of all characters that are complete before the limit, and a note. -/
def CutAtBoundary (str : Bytes) : Prop :=
  ∃ kept,kept <+: str ∧ Utf8 kept ∧ 9997 ≤ kept.length ∧ kept.length ≤ 10000 ∧
    limitedCopy str = .ok (some (kept ++ lit " ...[TRUNCATED]"),((kept ++ lit " ...[TRUNCATED]").length : ℤ))

lemma cutAtBoundary_of_noneEndsAt (hutf : Utf8 str) (hlong : maxStringValueSize+16 < str.length)
    (hnone : NoneEndsAt str maxStringValueSize) : CutAtBoundary str := by
  obtain ⟨m,hoffset,hmin,hmax,hkept⟩ := findUtf8Offset_of_noneEndsAt hutf (by decide) (by omega) hnone
  rw [maxStringValueSize] at hlong hmin hmax
  have hlength : (str.take m).length = m := List.length_take_of_le (by omega)
  refine ⟨str.take m,List.take_prefix m str,hkept,by omega,by omega,?_⟩
  rw [limitedCopy,if_neg (by rw [maxStringValueSize]; omega),hoffset,List.length_append,hlength]
  simp only [bind,Except.bind]
  rw [if_neg (by omega)]
  rfl

/-- The search goes back to an ASCII character, and its distance is subtracted the wrong way round. -/
lemma limitedCopy_of_complete (hutf : Utf8 str) (hlong : maxStringValueSize+16 < str.length)
    (hends : ¬NoneEndsAt str maxStringValueSize) :
    limitedCopy str =
      if asciiBefore str (maxStringValueSize-3) = 0 then .ok (some (lit " ...[TRUNCATED]"),15) else .error .outOfBounds := by
  rw [limitedCopy,if_neg (by omega),findUtf8Offset_of_complete hutf (by decide) (by omega) hends]
  simp only [bind,Except.bind]
  split_ifs with hneg hzero hzero
  · omega
  · rfl
  · rw [hzero]
    rfl
  · omega

theorem limitedCopy_cutAtBoundary_iff (hutf : Utf8 str) (hlong : 10016 < str.length) :
    CutAtBoundary str ↔ NoneEndsAt str maxStringValueSize := by
  refine ⟨fun hcut => ?_,cutAtBoundary_of_noneEndsAt hutf hlong⟩
  by_contra hends
  obtain ⟨kept,-,-,hmin,-,hcopy⟩ := hcut
  rw [limitedCopy_of_complete hutf hlong hends] at hcopy
  split_ifs at hcopy
  injection hcopy with hpair
  have hlength := (Prod.mk.inj hpair).2
  rw [List.length_append] at hlength
  omega

/-! Texts around the limit. -/

/-- A text with some bytes at the limit. -/
def textAround (s : Bytes) : Bytes := List.replicate 9998 97 ++ (s ++ List.replicate 100 97)

lemma utf8_textAround {s : Bytes} (hs : Utf8 s) : Utf8 (textAround s) := by
  have hascii (k : ℕ) : Utf8 (List.replicate k 97) := utf8_of_ascii fun b hb => by rw [List.eq_of_mem_replicate hb]; decide
  exact (hascii _).append (hs.append (hascii _))

lemma length_textAround (s : Bytes) : (textAround s).length = 10098+s.length := by
  rw [textAround,List.length_append,List.length_append,List.length_replicate,List.length_replicate]
  omega

lemma getD_textAround (s : Bytes) (k : ℕ) : (textAround s).getD (9998+k) 0 = (s ++ List.replicate 100 97).getD k 0 := by
  rw [textAround,List.getD_append_right _ _ _ _ (by rw [List.length_replicate]; omega),List.length_replicate,
    Nat.add_sub_cancel_left]

/-- A character of three bytes, the last one of which is behind the limit. -/
theorem textAround_cutAtBoundary :
    Utf8 (textAround [226,130,172]) ∧ 10016 < (textAround [226,130,172]).length ∧ CutAtBoundary (textAround [226,130,172]) := by
  have hutf : Utf8 (textAround [226,130,172]) := utf8_textAround ⟨[Char.ofNat 0x20AC],by decide⟩
  have hlong : 10016 < (textAround [226,130,172]).length := by rw [length_textAround]; decide
  have hnext : Continuation ((textAround [226,130,172]).getD 10000 0) := (getD_textAround _ 2).symm ▸ by decide
  exact ⟨hutf,hlong,(limitedCopy_cutAtBoundary_iff hutf hlong).mpr fun _ => hnext⟩

/-- A character of two bytes that ends at the limit. -/
theorem textAround_umlaut :
    Utf8 (textAround [195,164]) ∧ 10016 < (textAround [195,164]).length ∧ limitedCopy (textAround [195,164]) = .error .outOfBounds := by
  have hutf : Utf8 (textAround [195,164]) := utf8_textAround ⟨[Char.ofNat 0xE4],by decide⟩
  have hlong : 10016 < (textAround [195,164]).length := by rw [length_textAround]; decide
  have hcont : Continuation ((textAround [195,164]).getD 9999 0) := (getD_textAround _ 1).symm ▸ by decide
  have hnext : ¬Continuation ((textAround [195,164]).getD 10000 0) := (getD_textAround _ 2).symm ▸ by decide
  have hlast : asciiBefore (textAround [195,164]) (9996+1) = 9996+1 := by
    have hget : (textAround [195,164]).getD (9996+1) 0 = 97 := by
      rw [textAround,List.getD_append _ _ _ _ (by rw [List.length_replicate]; decide),List.getD_replicate _ (by decide)]
    rw [asciiBefore,hget]
    rfl
  refine ⟨hutf,hlong,?_⟩
  rw [limitedCopy_of_complete hutf hlong fun h => hnext (h hcont)]
  exact if_neg (hlast.trans_ne (by decide))

end Logjam.Importer
