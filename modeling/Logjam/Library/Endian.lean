import Mathlib

/-! Fixed width words in the memory of a little-endian host, and the reversal of their bytes that
takes host order to network order and back. -/
namespace Logjam.Library.Endian

def leBytes : ℕ → ℕ → List UInt8
  | 0,_ => []
  | w+1,v => UInt8.ofNat v::leBytes w (v/256)

def leValue (bs : List UInt8) : ℕ := Nat.ofDigits 256 (bs.map UInt8.toNat)

/-- The number the bytes are in network order. -/
def beValue (bs : List UInt8) : ℕ := leValue bs.reverse

def byteSwap (w v : ℕ) : ℕ := leValue (leBytes w v).reverse

@[simp] lemma length_leBytes (w v : ℕ) : (leBytes w v).length = w := by
  induction w generalizing v with
  | zero => rfl
  | succ w ih => rw [leBytes,List.length_cons,ih]

lemma leValue_cons (b : UInt8) (bs : List UInt8) : leValue (b::bs) = b.toNat+256*leValue bs := by
  simp [leValue,Nat.ofDigits_cons]

lemma leValue_lt (bs : List UInt8) : leValue bs < 256^bs.length := by
  have h := Nat.ofDigits_lt_base_pow_length (b := 256) (l := bs.map UInt8.toNat) (by omega) fun x hx => by
    obtain ⟨b,_,rfl⟩ := List.mem_map.mp hx
    exact b.toNat_lt
  rwa [List.length_map] at h

theorem leValue_leBytes (w v : ℕ) : leValue (leBytes w v) = v%256^w := by
  induction w generalizing v with
  | zero => simp [leBytes,leValue,Nat.mod_one]
  | succ w ih =>
    rw [leBytes,leValue_cons,ih,UInt8.toNat_ofNat',pow_succ' (256 : ℕ) w,Nat.mod_mul,
      show 2^8 = 256 from rfl]

lemma leValue_leBytes_of_lt {w v : ℕ} (h : v < 256^w) : leValue (leBytes w v) = v := by
  rw [leValue_leBytes,Nat.mod_eq_of_lt h]

theorem leBytes_leValue (bs : List UInt8) : leBytes bs.length (leValue bs) = bs := by
  induction bs with
  | nil => rfl
  | cons b bs ih =>
    have hb := b.toNat_lt
    have hdiv : (b.toNat+256*leValue bs)/256 = leValue bs := by omega
    have hmod : UInt8.ofNat (b.toNat+256*leValue bs) = b := by
      apply UInt8.toNat_inj.mp
      rw [UInt8.toNat_ofNat']
      omega
    rw [List.length_cons,leBytes,leValue_cons,hdiv,hmod,ih]

lemma byteSwap_leValue (bs : List UInt8) : byteSwap bs.length (leValue bs) = beValue bs := by
  rw [byteSwap,leBytes_leValue,beValue]

lemma byteSwap_lt (w v : ℕ) : byteSwap w v < 256^w := by
  have h := leValue_lt (leBytes w v).reverse
  rwa [List.length_reverse,length_leBytes] at h

theorem leBytes_byteSwap (w v : ℕ) : leBytes w (byteSwap w v) = (leBytes w v).reverse := by
  have h := leBytes_leValue (leBytes w v).reverse
  rwa [List.length_reverse,length_leBytes] at h

theorem byteSwap_byteSwap {w v : ℕ} (h : v < 256^w) : byteSwap w (byteSwap w v) = v := by
  rw [byteSwap,leBytes_byteSwap,List.reverse_reverse,leValue_leBytes_of_lt h]

/-- The bytes of a number in network order. -/
def beBytes (w v : ℕ) : List UInt8 := (leBytes w v).reverse

/-- Reading from the left, each byte shifts the ones before it. -/
lemma beValue_concat (bs : List UInt8) (b : UInt8) : beValue (bs ++ [b]) = b.toNat+256*beValue bs := by
  rw [beValue,List.reverse_append,List.reverse_singleton,List.singleton_append,leValue_cons,beValue]

end Logjam.Library.Endian
