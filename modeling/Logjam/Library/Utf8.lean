import Mathlib

/-! Lists of bytes that are the UTF-8 encoding of a text. Bytes below 128 stand for themselves and never
occur within the encoding of another character, so they can be replaced without decoding the text. -/
namespace Logjam.Library

/-- The bytes encode a text. -/
def Utf8 (s : List UInt8) : Prop := ∃ chars : List Char, s = chars.flatMap String.utf8EncodeChar

lemma utf8_nil : Utf8 [] := ⟨[],rfl⟩

lemma Utf8.append {s t : List UInt8} (hs : Utf8 s) (ht : Utf8 t) : Utf8 (s ++ t) := by
  obtain ⟨chars,rfl⟩ := hs
  obtain ⟨others,rfl⟩ := ht
  exact ⟨chars ++ others,List.flatMap_append.symm⟩

lemma utf8_encodeChar (c : Char) : Utf8 (String.utf8EncodeChar c) := ⟨[c],by simp⟩

/-- A character is encoded by the byte it is, or by bytes with the high bit set. -/
lemma encodeChar_cases (c : Char) :
    (∃ b : UInt8, b.toNat < 128 ∧ String.utf8EncodeChar c = [b]) ∨ ∀ b ∈ String.utf8EncodeChar c, 128 ≤ b.toNat := by
  unfold String.utf8EncodeChar
  by_cases hascii : c.val.toNat ≤ 127
  · left
    refine ⟨UInt8.ofNat c.val.toNat,?_,if_pos hascii⟩
    rw [UInt8.toNat_ofNat']
    omega
  · right
    simp only [if_neg hascii]
    split_ifs <;> simp only [List.forall_mem_cons,UInt8.toNat_ofNat'] <;> refine ⟨by omega,by omega,?_⟩
    · simp
    · simp
      omega
    · simp
      omega

lemma utf8_singleton {b : UInt8} (h : b.toNat < 128) : Utf8 [b] := by
  have hvalid : b.toNat.isValidChar := Or.inl (by omega)
  have hval : (Char.ofNat b.toNat).val.toNat = b.toNat := by
    rw [Char.ofNat,dif_pos hvalid]
    rfl
  refine ⟨[Char.ofNat b.toNat],?_⟩
  rw [List.flatMap_singleton,String.utf8EncodeChar,hval]
  simp only [if_pos (show b.toNat ≤ 127 by omega),UInt8.ofNat_toNat]

lemma utf8_of_ascii {s : List UInt8} (h : ∀ b ∈ s, b.toNat < 128) : Utf8 s := by
  induction s with
  | nil => exact utf8_nil
  | cons b s ih =>
    rw [List.forall_mem_cons] at h
    exact (utf8_singleton h.1).append (ih h.2)

/-- Characters below 128 may be replaced by texts. -/
theorem Utf8.flatMap {s : List UInt8} (hs : Utf8 s) {f : UInt8 → List UInt8} (hlow : ∀ b : UInt8, b.toNat < 128 → Utf8 (f b))
    (hhigh : ∀ b : UInt8, 128 ≤ b.toNat → f b = [b]) : Utf8 (s.flatMap f) := by
  obtain ⟨chars,rfl⟩ := hs
  induction chars with
  | nil => exact utf8_nil
  | cons c chars ih =>
    rw [List.flatMap_cons,List.flatMap_append]
    refine Utf8.append ?_ ih
    obtain ⟨b,hb,hc⟩ | hc := encodeChar_cases c
    · rw [hc,List.flatMap_singleton]
      exact hlow b hb
    · have hsame : (String.utf8EncodeChar c).flatMap f = String.utf8EncodeChar c := by
        rw [List.flatMap_congr fun b hb => hhigh b (hc b hb),List.flatMap_singleton']
      rw [hsame]
      exact utf8_encodeChar c

/-! Boundaries. The first byte of a character tells how many bytes follow, and only those that follow are
continuation bytes. -/

def Continuation (b : UInt8) : Prop := 128 ≤ b.toNat ∧ b.toNat < 192

instance : DecidablePred Continuation := fun _ => inferInstanceAs (Decidable (_ ∧ _))

/-- Properties of bytes are checked by going through them. -/
lemma forall_uint8 {P : UInt8 → Prop} (h : ∀ i < 256,P (UInt8.ofNat i)) (c : UInt8) : P c := by
  have hc := h c.toNat c.toNat_lt
  rwa [UInt8.ofNat_toNat] at hc

lemma mask_high (b : UInt8) : b &&& 0x80 ≠ 0 ↔ 128 ≤ b.toNat := by
  revert b
  exact forall_uint8 (by decide +kernel)

/-- The size of the character that starts with a byte. -/
def leadSize (b : UInt8) : ℕ :=
  if b.toNat < 128 then 1 else if b.toNat < 224 then 2 else if b.toNat < 240 then 3 else 4

lemma encodeChar_eq_cons (c : Char) :
    ∃ lead rest, String.utf8EncodeChar c = lead::rest ∧ ¬Continuation lead ∧ (∀ b ∈ rest, Continuation b) ∧
      rest.length+1 = leadSize lead := by
  have htail (x : ℕ) : Continuation (UInt8.ofNat (x%64+128)) := by
    rw [Continuation,UInt8.toNat_ofNat']
    omega
  have hnil : ∀ b ∈ ([] : List UInt8), Continuation b := List.forall_mem_nil _
  have hlead (x size : ℕ) (hx : x < 256) (hnot : ¬(128 ≤ x ∧ x < 192))
      (hsize : size = if x < 128 then 1 else if x < 224 then 2 else if x < 240 then 3 else 4) :
      ¬Continuation (UInt8.ofNat x) ∧ size = leadSize (UInt8.ofNat x) := by
    rw [Continuation,leadSize,UInt8.toNat_ofNat',Nat.mod_eq_of_lt hx]
    exact ⟨hnot,hsize⟩
  simp only [String.utf8EncodeChar]
  generalize c.val.toNat = v
  by_cases hone : v ≤ 127
  · obtain ⟨hnot,hsize⟩ := hlead v 1 (by omega) (by omega) (by split_ifs <;> omega)
    rw [if_pos hone]
    exact ⟨_,_,rfl,hnot,hnil,hsize⟩
  by_cases htwo : v ≤ 2047
  · obtain ⟨hnot,hsize⟩ := hlead (v/64%32+192) 2 (by omega) (by omega) (by split_ifs <;> omega)
    rw [if_neg hone,if_pos htwo]
    exact ⟨_,_,rfl,hnot,by simp only [List.forall_mem_cons,htail,true_and]; exact hnil,hsize⟩
  by_cases hthree : v ≤ 65535
  · obtain ⟨hnot,hsize⟩ := hlead (v/4096%16+224) 3 (by omega) (by omega) (by split_ifs <;> omega)
    rw [if_neg hone,if_neg htwo,if_pos hthree]
    exact ⟨_,_,rfl,hnot,by simp only [List.forall_mem_cons,htail,true_and]; exact hnil,hsize⟩
  · obtain ⟨hnot,hsize⟩ := hlead (v/262144%8+240) 4 (by omega) (by omega) (by split_ifs <;> omega)
    rw [if_neg hone,if_neg htwo,if_neg hthree]
    exact ⟨_,_,rfl,hnot,by simp only [List.forall_mem_cons,htail,true_and]; exact hnil,hsize⟩

/-- A text can be cut before any byte that is not a continuation byte. -/
theorem Utf8.split {a b : List UInt8} (h : Utf8 (a ++ b)) (hb : ∀ x ∈ b.head?, ¬Continuation x) : Utf8 a ∧ Utf8 b := by
  obtain ⟨chars,hchars⟩ := h
  induction chars generalizing a with
  | nil =>
    obtain ⟨rfl,rfl⟩ := List.append_eq_nil_iff.mp hchars
    exact ⟨utf8_nil,utf8_nil⟩
  | cons c chars ih =>
    rw [List.flatMap_cons] at hchars
    obtain ⟨lead,rest,hc,-,hrest,-⟩ := encodeChar_eq_cons c
    rcases List.append_eq_append_iff.mp hchars with ⟨cut,hcut,hb'⟩ | ⟨a',ha,hrest'⟩
    · -- the cut is inside of the first character, so it is at its start or at its end
      cases a with
      | nil =>
        refine ⟨utf8_nil,⟨c::chars,?_⟩⟩
        rw [List.nil_append] at hchars
        rw [hchars,List.flatMap_cons]
      | cons x a =>
        cases cut with
        | nil =>
          rw [List.append_nil] at hcut
          rw [← hcut]
          exact ⟨utf8_encodeChar c,⟨chars,hb'⟩⟩
        | cons y cut =>
          rw [hc,List.cons_append] at hcut
          have hy : y ∈ rest := (List.cons.inj hcut).2 ▸ List.mem_append_right a List.mem_cons_self
          exact absurd (hrest y hy) (hb y (by rw [hb']; rfl))
    · obtain ⟨ha',hutf⟩ := ih hrest'.symm
      rw [ha]
      exact ⟨(utf8_encodeChar c).append ha',hutf⟩

/-- What follows a character is a text. -/
theorem Utf8.of_encodeChar_append {c : Char} {t : List UInt8} (h : Utf8 (String.utf8EncodeChar c ++ t)) : Utf8 t := by
  obtain ⟨chars,hchars⟩ := h
  obtain ⟨lead,rest,hc,-,-,hsize⟩ := encodeChar_eq_cons c
  cases chars with
  | nil =>
    rw [hc] at hchars
    cases hchars
  | cons d chars =>
    obtain ⟨lead',rest',hd,-,-,hsize'⟩ := encodeChar_eq_cons d
    rw [List.flatMap_cons,hc,hd,List.cons_append,List.cons_append,List.cons.injEq] at hchars
    obtain ⟨rfl,htail⟩ := hchars
    obtain ⟨-,ht⟩ := List.append_inj htail (by omega)
    exact ⟨chars,ht⟩

theorem Utf8.of_append {s t : List UInt8} (hs : Utf8 s) (h : Utf8 (s ++ t)) : Utf8 t := by
  obtain ⟨chars,rfl⟩ := hs
  induction chars with
  | nil => exact h
  | cons c chars ih =>
    rw [List.flatMap_cons,List.append_assoc] at h
    exact ih h.of_encodeChar_append

/-- A text is empty or starts with a character. -/
lemma Utf8.eq_cons_or_nil {s : List UInt8} (h : Utf8 s) :
    s = [] ∨ ∃ lead rest t, s = lead::(rest ++ t) ∧ ¬Continuation lead ∧ (∀ b ∈ rest, Continuation b) ∧
      rest.length+1 = leadSize lead ∧ Utf8 t := by
  obtain ⟨chars,rfl⟩ := h
  cases chars with
  | nil => exact .inl rfl
  | cons c chars =>
    obtain ⟨lead,rest,hc,hlead,hrest,hsize⟩ := encodeChar_eq_cons c
    exact .inr ⟨lead,rest,chars.flatMap String.utf8EncodeChar,by rw [List.flatMap_cons,hc]; rfl,hlead,hrest,hsize,⟨chars,rfl⟩⟩

/-- A text is long enough for its first character. -/
lemma Utf8.leadSize_le {lead : UInt8} {rest : List UInt8} (h : Utf8 (lead::rest)) : leadSize lead ≤ rest.length+1 := by
  rcases h.eq_cons_or_nil with hnil | ⟨lead',rest',t,hcons,-,-,hsize,-⟩
  · cases hnil
  · obtain ⟨rfl,rfl⟩ := List.cons.inj hcons
    rw [← hsize,List.length_append]
    omega

/-- Outside of a text there is no continuation byte either, so that positions need no bounds. -/
lemma Utf8.not_continuation_zero {s : List UInt8} (h : Utf8 s) : ¬Continuation (s.getD 0 0) := by
  rcases h.eq_cons_or_nil with rfl | ⟨lead,rest,t,rfl,hlead,-⟩
  · decide
  · exact hlead

lemma Utf8.cut {s : List UInt8} (h : Utf8 s) {i : ℕ} (hi : ¬Continuation (s.getD i 0)) : Utf8 (s.take i) ∧ Utf8 (s.drop i) := by
  rw [← List.take_append_drop i s] at h
  refine h.split fun x hx => ?_
  rw [List.head?_drop,Option.mem_def] at hx
  rwa [List.getD_eq_getElem?_getD,hx] at hi

/-- The first byte of a character tells where the next one starts. -/
theorem Utf8.continuation_iff {s : List UInt8} (h : Utf8 s) {i : ℕ} (hi : i < s.length)
    (hlead : ¬Continuation (s.getD i 0)) {k : ℕ} (hpos : 0 < k) (hk : k ≤ leadSize (s.getD i 0)) :
    Continuation (s.getD (i+k) 0) ↔ k < leadSize (s.getD i 0) := by
  have hget (j : ℕ) : s.getD (i+j) 0 = (s.drop i).getD j 0 := by
    rw [List.getD_eq_getElem?_getD,List.getD_eq_getElem?_getD,List.getElem?_drop]
  have hfirst : s.getD i 0 = (s.drop i).getD 0 0 := hget 0
  rcases (h.cut hlead).2.eq_cons_or_nil with hnil | ⟨lead,rest,t,hcons,-,hrest,hsize,ht⟩
  · exact absurd (List.drop_eq_nil_iff.mp hnil) (by omega)
  rw [hfirst,hcons,List.getD_cons_zero] at hk ⊢
  rw [hget,hcons]
  obtain ⟨k,rfl⟩ := Nat.exists_eq_add_one_of_ne_zero hpos.ne'
  rw [List.getD_cons_succ,← hsize,Nat.add_lt_add_iff_right]
  rcases Nat.lt_or_ge k rest.length with hlt | hge
  · rw [List.getD_append _ _ _ _ hlt]
    refine iff_of_true (hrest _ ?_) hlt
    rw [List.getD_eq_getElem _ _ hlt]
    exact List.getElem_mem hlt
  · have hk' : k-rest.length = 0 := by omega
    rw [List.getD_append_right _ _ _ _ hge,hk']
    exact iff_of_false ht.not_continuation_zero (by omega)

/-- Every byte is part of a character. -/
theorem Utf8.exists_lead {s : List UInt8} (h : Utf8 s) {i : ℕ} (hi : i < s.length) :
    ∃ j ≤ i, ¬Continuation (s.getD j 0) ∧ i < j+leadSize (s.getD j 0) := by
  obtain ⟨chars,rfl⟩ := h
  induction chars generalizing i with
  | nil => cases hi
  | cons c chars ih =>
    obtain ⟨lead,rest,hc,hlead,-,hsize⟩ := encodeChar_eq_cons c
    rw [List.flatMap_cons,hc,List.cons_append] at hi ⊢
    rcases Nat.lt_or_ge i (rest.length+1) with hlt | hge
    · exact ⟨0,i.zero_le,hlead,by rw [List.getD_cons_zero]; omega⟩
    · have hi' : i-(rest.length+1) < (chars.flatMap String.utf8EncodeChar).length := by
        rw [List.length_cons,List.length_append] at hi
        omega
      obtain ⟨j,hj,hnot,hsize'⟩ := ih hi'
      have hget : (lead::(rest ++ chars.flatMap String.utf8EncodeChar)).getD (j+rest.length+1) 0 =
          (chars.flatMap String.utf8EncodeChar).getD j 0 := by
        rw [List.getD_cons_succ,List.getD_append_right _ _ _ _ (by omega),Nat.add_sub_cancel]
      exact ⟨j+rest.length+1,by omega,by rwa [hget],by rw [hget]; omega⟩

lemma leadSize_le_four (b : UInt8) : leadSize b ≤ 4 := by
  unfold leadSize
  split_ifs <;> omega

theorem validateUTF8_iff {s : List UInt8} : s.toByteArray.validateUTF8 = true ↔ Utf8 s := by
  rw [ByteArray.validateUTF8_eq_true_iff]
  constructor
  · rintro ⟨chars,h⟩
    exact ⟨chars,by simpa [List.utf8Encode] using h⟩
  · rintro ⟨chars,rfl⟩
    exact ⟨chars,rfl⟩

end Logjam.Library
