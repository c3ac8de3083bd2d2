import Mathlib.Algebra.Ring.Nat
import Mathlib.Data.List.Basic

-- Variable-length integers and capsules, as HTTP datagrams use them.
namespace OpenvpnServer.Lib

section Varint

def bigEndian (high : Nat) (bytes : List UInt8) : Nat :=
  bytes.foldl (fun n byte => n * 256 + byte.toNat) high

-- The two high bits of the first byte tell how many bytes there are: 1, 2, 4 or 8.
def readVarint : List UInt8 → Option (Nat × List UInt8)
  | [] => none
  | first :: rest =>
      if rest.length < 2 ^ (first.toNat / 64) - 1 then none
      else some (bigEndian (first.toNat % 64) (rest.take (2 ^ (first.toNat / 64) - 1)),
        rest.drop (2 ^ (first.toNat / 64) - 1))

-- The shortest form of a number below 2 ^ 62; there is none for others.
def appendVarint (n : Nat) : List UInt8 :=
  if n < 2 ^ 6 then [UInt8.ofNat n]
  else if n < 2 ^ 14 then [UInt8.ofNat (64 + n / 2 ^ 8), UInt8.ofNat n]
  else if n < 2 ^ 30 then
    [UInt8.ofNat (128 + n / 2 ^ 24), UInt8.ofNat (n / 2 ^ 16), UInt8.ofNat (n / 2 ^ 8),
      UInt8.ofNat n]
  else
    [UInt8.ofNat (192 + n / 2 ^ 56), UInt8.ofNat (n / 2 ^ 48), UInt8.ofNat (n / 2 ^ 40),
      UInt8.ofNat (n / 2 ^ 32), UInt8.ofNat (n / 2 ^ 24), UInt8.ofNat (n / 2 ^ 16),
      UInt8.ofNat (n / 2 ^ 8), UInt8.ofNat n]

example : readVarint [0, 7] = some (0, [7]) ∧ readVarint [0x40, 0, 7] = some (0, [7]) ∧
    readVarint [0x40] = none := by
  decide

-- Its equations, before the lemmas that rewrite with them.
attribute [local simp] readVarint

theorem readVarint_append {bytes left : List UInt8} {n : Nat}
    (h : readVarint bytes = some (n, left)) (more : List UInt8) :
    readVarint (bytes ++ more) = some (n, left ++ more) := by
  cases bytes with
  | nil => cases h
  | cons first rest =>
      rw [readVarint] at h
      rw [List.cons_append, readVarint]
      split at h
      · cases h
      · rename_i hlength
        cases h
        have hmore : ¬(rest ++ more).length < 2 ^ (first.toNat / 64) - 1 := by
          rw [List.length_append]
          omega
        rw [if_neg hmore, List.take_append_of_le_length (by omega),
          List.drop_append_of_le_length (by omega)]

theorem length_of_readVarint {bytes left : List UInt8} {n : Nat}
    (h : readVarint bytes = some (n, left)) : left.length < bytes.length := by
  cases bytes with
  | nil => cases h
  | cons first rest =>
      rw [readVarint] at h
      split at h
      · cases h
      · cases h
        rw [List.length_drop, List.length_cons]
        omega

theorem drop_of_readVarint {bytes left : List UInt8} {n : Nat}
    (h : readVarint bytes = some (n, left)) :
    bytes.drop (bytes.length - left.length) = left := by
  cases bytes with
  | nil => cases h
  | cons first rest =>
      rw [readVarint] at h
      split at h
      · cases h
      · rename_i hlength
        cases h
        have hskip : (first :: rest).length - (rest.drop (2 ^ (first.toNat / 64) - 1)).length =
            (2 ^ (first.toNat / 64) - 1) + 1 := by
          rw [List.length_drop, List.length_cons]
          omega
        rw [hskip, List.drop_succ_cons]

theorem readVarint_cons {first : UInt8} {tail : List UInt8} {form : Nat}
    (hform : first.toNat / 64 = form) (htail : tail.length = 2 ^ form - 1) (rest : List UInt8) :
    readVarint (first :: (tail ++ rest)) = some (bigEndian (first.toNat % 64) tail, rest) := by
  have hlength : ¬(tail ++ rest).length < 2 ^ form - 1 := by
    rw [List.length_append]
    omega
  rw [readVarint, hform, if_neg hlength, ← htail, List.take_left, List.drop_left]

theorem readVarint_appendVarint {n : Nat} (hn : n < 2 ^ 62) (rest : List UInt8) :
    readVarint (appendVarint n ++ rest) = some (n, rest) := by
  unfold appendVarint
  split
  · have hfirst : (UInt8.ofNat n).toNat = n := by
      rw [UInt8.toNat_ofNat']
      omega
    have hread := @readVarint_cons (UInt8.ofNat n) [] 0 (by omega) rfl rest
    rw [hfirst, Nat.mod_eq_of_lt (by omega)] at hread
    exact hread
  · split
    · have hfirst : (UInt8.ofNat (64 + n / 2 ^ 8)).toNat = 64 + n / 2 ^ 8 := by
        rw [UInt8.toNat_ofNat']
        omega
      rw [List.cons_append,
        readVarint_cons (show (UInt8.ofNat (64 + n / 2 ^ 8)).toNat / 64 = 1 by omega) rfl, hfirst]
      simp only [bigEndian, List.foldl_cons, List.foldl_nil, UInt8.toNat_ofNat',
        Option.some.injEq, Prod.mk.injEq, and_true]
      omega
    · split
      · have hfirst : (UInt8.ofNat (128 + n / 2 ^ 24)).toNat = 128 + n / 2 ^ 24 := by
          rw [UInt8.toNat_ofNat']
          omega
        rw [List.cons_append,
          readVarint_cons (show (UInt8.ofNat (128 + n / 2 ^ 24)).toNat / 64 = 2 by omega) rfl,
          hfirst]
        simp only [bigEndian, List.foldl_cons, List.foldl_nil, UInt8.toNat_ofNat',
          Option.some.injEq, Prod.mk.injEq, and_true]
        omega
      · have hfirst : (UInt8.ofNat (192 + n / 2 ^ 56)).toNat = 192 + n / 2 ^ 56 := by
          rw [UInt8.toNat_ofNat']
          omega
        rw [List.cons_append,
          readVarint_cons (show (UInt8.ofNat (192 + n / 2 ^ 56)).toNat / 64 = 3 by omega) rfl,
          hfirst]
        simp only [bigEndian, List.foldl_cons, List.foldl_nil, UInt8.toNat_ofNat',
          Option.some.injEq, Prod.mk.injEq, and_true]
        omega

structure Varint where
  bytes : List UInt8
  value : Nat
  reads : readVarint bytes = some (value, [])

def Varint.ofNat (n : Nat) (hn : n < 2 ^ 62) : Varint where
  bytes := appendVarint n
  value := n
  reads := by
    have hreads := readVarint_appendVarint hn []
    rwa [List.append_nil] at hreads

end Varint

section Capsule

def capsuleHeader (stream : List UInt8) : Option (Nat × Nat × List UInt8) :=
  match readVarint stream with
  | none => none
  | some (kind, rest) => (readVarint rest).map fun found => (kind, found.1, found.2)

def StartsWhole (stream : List UInt8) : Prop :=
  ∃ kind length body, capsuleHeader stream = some (kind, length, body) ∧ length ≤ body.length

structure Capsule where
  kind : Varint
  length : Varint
  value : List UInt8
  fits : length.value = value.length

def Capsule.bytes (capsule : Capsule) : List UInt8 :=
  capsule.kind.bytes ++ (capsule.length.bytes ++ capsule.value)

def wire (capsules : List Capsule) : List UInt8 := capsules.flatMap Capsule.bytes

def writeCapsule (kind : Nat) (value : List UInt8) : List UInt8 :=
  appendVarint kind ++ (appendVarint value.length ++ value)

theorem capsuleHeader_bytes (capsule : Capsule) (rest : List UInt8) :
    capsuleHeader (capsule.bytes ++ rest) =
      some (capsule.kind.value, capsule.value.length, capsule.value ++ rest) := by
  unfold capsuleHeader Capsule.bytes
  rw [List.append_assoc, readVarint_append capsule.kind.reads]
  dsimp only
  rw [List.nil_append, List.append_assoc, readVarint_append capsule.length.reads,
    ← capsule.fits]
  rfl

theorem length_bytes_pos (capsule : Capsule) : 0 < capsule.bytes.length := by
  have hkind := length_of_readVarint capsule.kind.reads
  rw [Capsule.bytes, List.length_append]
  omega

theorem length_le_wire (capsules : List Capsule) : capsules.length ≤ (wire capsules).length := by
  induction capsules with
  | nil => exact Nat.zero_le _
  | cons capsule rest ih =>
      have hpos := length_bytes_pos capsule
      rw [wire, List.flatMap_cons, List.length_append, List.length_cons]
      rw [wire] at ih
      omega

end Capsule

end OpenvpnServer.Lib
