import Mathlib.Data.List.Basic

/-!
# Base64 without padding, in the URL alphabet

Three bytes are four digits of six bits; one or two bytes at the end are two or three digits.  The
decoder is the lenient one: it reads the digits of either alphabet, and leaves out every other
character, and bits that make no byte.

* `decode_encode`: **what was encoded is read back**.
-/

namespace Base64

/-- The digits, in the URL alphabet. -/
def digits : List Char :=
  "ABCDEFGHIJKLMNOPQRSTUVWXYZabcdefghijklmnopqrstuvwxyz0123456789-_".toList

def digit (n : ℕ) : Char := digits.getD n 'A'

/-- The value of a digit of one of the alphabets. -/
def value? (c : Char) : Option ℕ :=
  if c = '+' then some 62 else if c = '/' then some 63 else digits.findIdx? (· == c)

/-- The digits of some bytes. -/
def encode : List UInt8 → List Char
  | [] => []
  | [a] => [digit (a.toNat / 4), digit (a.toNat % 4 * 16)]
  | [a, b] =>
    [digit (a.toNat / 4), digit (a.toNat % 4 * 16 + b.toNat / 16), digit (b.toNat % 16 * 4)]
  | a :: b :: c :: bytes =>
    digit (a.toNat / 4) :: digit (a.toNat % 4 * 16 + b.toNat / 16) ::
      digit (b.toNat % 16 * 4 + c.toNat / 64) :: digit (c.toNat % 64) :: encode bytes

/-- The bytes of some values of digits. -/
def bytesOf : List ℕ → List UInt8
  | a :: b :: c :: d :: values =>
    UInt8.ofNat (a * 4 + b / 16) :: UInt8.ofNat (b % 16 * 16 + c / 4) ::
      UInt8.ofNat (c % 4 * 64 + d) :: bytesOf values
  | [a, b, c] => [UInt8.ofNat (a * 4 + b / 16), UInt8.ofNat (b % 16 * 16 + c / 4)]
  | [a, b] => [UInt8.ofNat (a * 4 + b / 16)]
  | _ => []

def decode (text : List Char) : List UInt8 := bytesOf (text.filterMap value?)

theorem value?_digits : ∀ n ∈ List.range 64, value? (digit n) = some n := by
  decide

theorem value?_digit {n : ℕ} (h : n < 64) : value? (digit n) = some n :=
  value?_digits n (List.mem_range.mpr h)

theorem filterMap_digit {n : ℕ} (h : n < 64) (text : List Char) :
    (digit n :: text).filterMap value? = n :: text.filterMap value? :=
  List.filterMap_cons_some (value?_digit h)

/-- A byte is made of its parts. -/
theorem ofNat_eq {b : UInt8} {n : ℕ} (h : n = b.toNat) : UInt8.ofNat n = b := by
  rw [h, UInt8.ofNat_toNat]

/-- **What was encoded is read back.** -/
theorem decode_encode (bytes : List UInt8) : decode (encode bytes) = bytes := by
  unfold decode
  induction bytes using encode.induct with
  | case1 => rfl
  | case2 a =>
    have ha := a.toNat_lt
    rw [encode, filterMap_digit (by omega), filterMap_digit (by omega), List.filterMap_nil, bytesOf,
      ofNat_eq]
    omega
  | case3 a b =>
    have ha := a.toNat_lt
    have hb := b.toNat_lt
    rw [encode, filterMap_digit (by omega), filterMap_digit (by omega), filterMap_digit (by omega),
      List.filterMap_nil, bytesOf, ofNat_eq (b := a) (by omega), ofNat_eq (b := b) (by omega)]
  | case4 a b c bytes ih =>
    have ha := a.toNat_lt
    have hb := b.toNat_lt
    have hc := c.toNat_lt
    rw [encode, filterMap_digit (by omega), filterMap_digit (by omega), filterMap_digit (by omega),
      filterMap_digit (by omega), bytesOf, ih, ofNat_eq (b := a) (by omega),
      ofNat_eq (b := b) (by omega), ofNat_eq (b := c) (by omega)]

theorem encode_ne_nil {bytes : List UInt8} (h : bytes ≠ []) : encode bytes ≠ [] := by
  rcases bytes with _ | ⟨a, _ | ⟨b, _ | ⟨c, bytes⟩⟩⟩
  · exact absurd rfl h
  · simp [encode]
  · simp [encode]
  · simp [encode]

end Base64
