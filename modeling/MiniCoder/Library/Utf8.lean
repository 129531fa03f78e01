import Mathlib.Data.List.Basic
import Mathlib.Data.List.Infix

/-!
# UTF-8 with replacement

The decoder that never fails: it reads a byte at a time, and a byte that cannot go on with the
character that was begun ends it with a replacement character and is read anew.  A byte sequence is
valid when it is the encoding of some characters.

* `decode_append`: a valid sequence decodes to its characters, whatever comes after it.
* `firstBytes_le`: a decoding has a character for every byte that begins one.
* `valid_of_append`: a valid sequence can be cut before a byte that begins a character.
* `flatMap_decode_iff`: a valid sequence can be decoded piece by piece when each piece is valid, and
  in no other case.
-/

namespace Utf8

/-! ### The decoder -/

/-- A character that was begun: the bytes still owed, the bounds of the next one, and the bits of
the code point so far. -/
structure Pending where
  owed : ℕ
  lower : ℕ
  upper : ℕ
  code : ℕ
  lower_ge : 0x80 ≤ lower
  upper_le : upper ≤ 0xBF

/-- Between two characters, or inside of one. -/
abbrev State := Option Pending

/-- What stands for bytes that are no character. -/
def replacement : Char := '\uFFFD'

/-- The first byte of a character. -/
def first (b : ℕ) : List Char × State :=
  if b ≤ 0x7F then ([Char.ofNat b], none)
  else if 0xC2 ≤ b ∧ b ≤ 0xDF then
    ([], some ⟨1, 0x80, 0xBF, b - 0xC0, by decide, by decide⟩)
  else if b = 0xE0 then ([], some ⟨2, 0xA0, 0xBF, 0, by decide, by decide⟩)
  else if b = 0xED then ([], some ⟨2, 0x80, 0x9F, 0xD, by decide, by decide⟩)
  else if 0xE1 ≤ b ∧ b ≤ 0xEF then
    ([], some ⟨2, 0x80, 0xBF, b - 0xE0, by decide, by decide⟩)
  else if b = 0xF0 then ([], some ⟨3, 0x90, 0xBF, 0, by decide, by decide⟩)
  else if b = 0xF4 then ([], some ⟨3, 0x80, 0x8F, 4, by decide, by decide⟩)
  else if 0xF1 ≤ b ∧ b ≤ 0xF3 then
    ([], some ⟨3, 0x80, 0xBF, b - 0xF0, by decide, by decide⟩)
  else ([replacement], none)

/-- One byte: the characters it completes, and the state after it. -/
def step : State → ℕ → List Char × State
  | none, b => first b
  | some p, b =>
    if p.lower ≤ b ∧ b ≤ p.upper then
      if p.owed ≤ 1 then ([Char.ofNat (p.code * 64 + (b - 0x80))], none)
      else ([], some ⟨p.owed - 1, 0x80, 0xBF, p.code * 64 + (b - 0x80), by decide, by decide⟩)
    else (replacement :: (first b).1, (first b).2)

/-- The end of the bytes, which cuts off a character that was begun. -/
def finish : State → List Char
  | none => []
  | some _ => [replacement]

def decodeFrom : State → List UInt8 → List Char
  | state, [] => finish state
  | state, b :: bytes => (step state b.toNat).1 ++ decodeFrom (step state b.toNat).2 bytes

/-- The characters of some bytes. -/
def decode (bytes : List UInt8) : List Char := decodeFrom none bytes

/-- The bytes of some characters. -/
def encode (chars : List Char) : List UInt8 := chars.flatMap String.utf8EncodeChar

def Valid (bytes : List UInt8) : Prop := ∃ chars, bytes = encode chars

@[simp] theorem encode_nil : encode [] = [] := rfl

@[simp] theorem encode_cons (c : Char) (chars : List Char) :
    encode (c :: chars) = String.utf8EncodeChar c ++ encode chars := rfl

theorem encode_append (chars chars' : List Char) :
    encode (chars ++ chars') = encode chars ++ encode chars' := List.flatMap_append

/-! ### One character -/

/-- A byte of the encoding of a character, as a number. -/
theorem toNat_ofNat {n : ℕ} (h : n < 256) : (UInt8.ofNat n).toNat = n := by
  rw [UInt8.toNat_ofNat']
  exact Nat.mod_eq_of_lt h

theorem decodeFrom_cons (state : State) {n : ℕ} (h : n < 256) (bytes : List UInt8) :
    decodeFrom state (UInt8.ofNat n :: bytes) =
      (step state n).1 ++ decodeFrom (step state n).2 bytes := by
  rw [decodeFrom, toNat_ofNat h]

/-- A byte that a pending character owes. -/
theorem decodeFrom_owed {p : Pending} {n : ℕ} (hlower : p.lower ≤ n) (hupper : n ≤ p.upper)
    (howed : 1 < p.owed) (bytes : List UInt8) :
    decodeFrom (some p) (UInt8.ofNat n :: bytes) = decodeFrom
      (some ⟨p.owed - 1, 0x80, 0xBF, p.code * 64 + (n - 0x80), by decide, by decide⟩) bytes := by
  have hn : n < 256 := by
    have := p.upper_le
    omega
  rw [decodeFrom_cons _ hn, step, if_pos ⟨hlower, hupper⟩, if_neg (by omega)]
  rfl

/-- The last byte of a pending character. -/
theorem decodeFrom_last {p : Pending} {n : ℕ} (hlower : p.lower ≤ n) (hupper : n ≤ p.upper)
    (howed : p.owed ≤ 1) (bytes : List UInt8) :
    decodeFrom (some p) (UInt8.ofNat n :: bytes) =
      Char.ofNat (p.code * 64 + (n - 0x80)) :: decodeFrom none bytes := by
  have hn : n < 256 := by
    have := p.upper_le
    omega
  rw [decodeFrom_cons _ hn, step, if_pos ⟨hlower, hupper⟩, if_pos howed]
  rfl

/-- The first of two bytes. -/
theorem first_two {b : ℕ} (hb : 0xC2 ≤ b ∧ b ≤ 0xDF) :
    first b = ([], some ⟨1, 0x80, 0xBF, b - 0xC0, by decide, by decide⟩) := by
  rw [first, if_neg (by omega), if_pos hb]

/-- The first of three bytes, before a second one that goes with it. -/
theorem first_three {b n : ℕ} (hb : 0xE0 ≤ b ∧ b ≤ 0xEF) (hn : 0x80 ≤ n ∧ n ≤ 0xBF)
    (hlow : b = 0xE0 → 0xA0 ≤ n) (hhigh : b = 0xED → n ≤ 0x9F) :
    ∃ p, first b = ([], some p) ∧ p.owed = 2 ∧ p.code = b - 0xE0 ∧ p.lower ≤ n ∧ n ≤ p.upper := by
  rw [first, if_neg (by omega), if_neg (by omega)]
  by_cases h0 : b = 0xE0
  · rw [if_pos h0]
    exact ⟨_, rfl, rfl, by rw [h0], hlow h0, hn.2⟩
  · by_cases hD : b = 0xED
    · rw [if_neg h0, if_pos hD]
      exact ⟨_, rfl, rfl, by rw [hD], hn.1, hhigh hD⟩
    · rw [if_neg h0, if_neg hD, if_pos (by omega)]
      exact ⟨_, rfl, rfl, rfl, hn.1, hn.2⟩

/-- The first of four bytes, before a second one that goes with it. -/
theorem first_four {b n : ℕ} (hb : 0xF0 ≤ b ∧ b ≤ 0xF4) (hn : 0x80 ≤ n ∧ n ≤ 0xBF)
    (hlow : b = 0xF0 → 0x90 ≤ n) (hhigh : b = 0xF4 → n ≤ 0x8F) :
    ∃ p, first b = ([], some p) ∧ p.owed = 3 ∧ p.code = b - 0xF0 ∧ p.lower ≤ n ∧ n ≤ p.upper := by
  rw [first, if_neg (by omega), if_neg (by omega), if_neg (by omega), if_neg (by omega),
    if_neg (by omega)]
  by_cases h0 : b = 0xF0
  · rw [if_pos h0]
    exact ⟨_, rfl, rfl, by rw [h0], hlow h0, hn.2⟩
  · by_cases h4 : b = 0xF4
    · rw [if_neg h0, if_pos h4]
      exact ⟨_, rfl, rfl, by rw [h4], hn.1, hhigh h4⟩
    · rw [if_neg h0, if_neg h4, if_pos (by omega)]
      exact ⟨_, rfl, rfl, rfl, hn.1, hn.2⟩

/-- **The encoding of a character** decodes to the character. -/
theorem decodeFrom_utf8EncodeChar (c : Char) (bytes : List UInt8) :
    decodeFrom none (String.utf8EncodeChar c ++ bytes) = c :: decodeFrom none bytes := by
  have hchar : Char.ofNat c.val.toNat = c := Char.ofNat_toNat c
  have hvalid : c.val.toNat < 0xD800 ∨ 0xDFFF < c.val.toNat ∧ c.val.toNat < 0x110000 := c.valid
  unfold String.utf8EncodeChar
  dsimp only
  generalize c.val.toNat = v at hchar hvalid
  by_cases h1 : v ≤ 0x7F
  · rw [if_pos h1, List.singleton_append, decodeFrom_cons _ (by omega), step, first, if_pos h1, hchar]
    rfl
  · by_cases h2 : v ≤ 0x7FF
    · have hcode : (v / 64 % 32 + 192 - 192) * 64 + (v % 64 + 128 - 128) = v := by omega
      rw [if_neg h1, if_pos h2, List.cons_append, List.cons_append, List.nil_append,
        decodeFrom_cons _ (by omega), step, first_two (by omega), List.nil_append,
        decodeFrom_last (by show 128 ≤ _; omega) (by show _ ≤ 191; omega) le_rfl, hcode, hchar]
    · by_cases h3 : v ≤ 0xFFFF
      · have hcode : ((v / 4096 % 16 + 224 - 224) * 64 + (v / 64 % 64 + 128 - 128)) * 64 +
            (v % 64 + 128 - 128) = v := by omega
        obtain ⟨p, hfirst, howed, hbits, hlower, hupper⟩ : ∃ p, first (v / 4096 % 16 + 224) =
            ([], some p) ∧ p.owed = 2 ∧ p.code = v / 4096 % 16 + 224 - 224 ∧
              p.lower ≤ v / 64 % 64 + 128 ∧ v / 64 % 64 + 128 ≤ p.upper :=
          first_three (by omega) (by omega) (by omega) (by omega)
        rw [if_neg h1, if_neg h2, if_pos h3, List.cons_append, List.cons_append, List.cons_append,
          List.nil_append, decodeFrom_cons _ (by omega), step, hfirst, List.nil_append,
          decodeFrom_owed hlower hupper (by omega),
          decodeFrom_last (by show 128 ≤ _; omega) (by show _ ≤ 191; omega)
            (by show p.owed - 1 ≤ 1; omega), hbits, hcode, hchar]
      · have hcode : (((v / 262144 % 8 + 240 - 240) * 64 + (v / 4096 % 64 + 128 - 128)) * 64 +
            (v / 64 % 64 + 128 - 128)) * 64 + (v % 64 + 128 - 128) = v := by omega
        obtain ⟨p, hfirst, howed, hbits, hlower, hupper⟩ : ∃ p, first (v / 262144 % 8 + 240) =
            ([], some p) ∧ p.owed = 3 ∧ p.code = v / 262144 % 8 + 240 - 240 ∧
              p.lower ≤ v / 4096 % 64 + 128 ∧ v / 4096 % 64 + 128 ≤ p.upper :=
          first_four (by omega) (by omega) (by omega) (by omega)
        rw [if_neg h1, if_neg h2, if_neg h3, List.cons_append, List.cons_append, List.cons_append,
          List.cons_append, List.nil_append, decodeFrom_cons _ (by omega), step, hfirst,
          List.nil_append, decodeFrom_owed hlower hupper (by omega),
          decodeFrom_owed (by show 128 ≤ _; omega) (by show _ ≤ 191; omega)
            (by show 1 < p.owed - 1; omega),
          decodeFrom_last (by show 128 ≤ _; omega) (by show _ ≤ 191; omega)
            (by show p.owed - 1 - 1 ≤ 1; omega), hbits, hcode, hchar]

/-! ### Characters -/

/-- **A valid sequence** decodes to its characters, whatever comes after it. -/
theorem decodeFrom_encode (chars : List Char) (bytes : List UInt8) :
    decodeFrom none (encode chars ++ bytes) = chars ++ decodeFrom none bytes := by
  induction chars with
  | nil => rfl
  | cons c chars ih =>
    rw [encode_cons, List.append_assoc, decodeFrom_utf8EncodeChar, ih, List.cons_append]

theorem decode_encode (chars : List Char) : decode (encode chars) = chars := by
  have h := decodeFrom_encode chars []
  rwa [List.append_nil, decodeFrom, finish, List.append_nil] at h

theorem decode_append {bytes : List UInt8} (h : Valid bytes) (more : List UInt8) :
    decode (bytes ++ more) = decode bytes ++ decode more := by
  obtain ⟨chars, rfl⟩ := h
  rw [decode_encode]
  exact decodeFrom_encode chars more

/-! ### First bytes -/

/-- A byte that goes on with a character. -/
def isTail (b : UInt8) : Bool := 0x80 ≤ b.toNat && b.toNat ≤ 0xBF

/-- How many bytes are the first one of a character, or none of one. -/
def firstBytes (bytes : List UInt8) : ℕ := bytes.countP fun b => !isTail b

/-- The replacement that the end of the bytes would bring. -/
def owing : State → ℕ
  | none => 0
  | some _ => 1

@[simp] theorem owing_none : owing none = 0 := rfl

@[simp] theorem owing_some (p : Pending) : owing (some p) = 1 := rfl

theorem length_first (b : ℕ) : (first b).1.length + owing (first b).2 = 1 := by
  unfold first
  split_ifs <;> rfl

/-- One byte: what it completes or begins makes up for it. -/
theorem firstBytes_step (state : State) (b : UInt8) :
    (if isTail b then 0 else 1) + owing state ≤
      (step state b.toNat).1.length + owing (step state b.toNat).2 := by
  have hfirst := length_first b.toNat
  rcases state with _ | p
  · simp only [step, owing_none]
    split_ifs <;> omega
  · by_cases hrange : p.lower ≤ b.toNat ∧ b.toNat ≤ p.upper
    · have htail : isTail b = true := by
        have hlower := p.lower_ge
        have hupper := p.upper_le
        simp only [isTail, Bool.and_eq_true, decide_eq_true_eq]
        omega
      rw [if_pos htail, step, if_pos hrange]
      split_ifs <;> simp [owing]
    · rw [step, if_neg hrange]
      simp only [owing_some, List.length_cons]
      split_ifs <;> omega

theorem firstBytes_cons (b : UInt8) (bytes : List UInt8) :
    firstBytes (b :: bytes) = (if isTail b then 0 else 1) + firstBytes bytes := by
  unfold firstBytes
  rw [List.countP_cons, Nat.add_comm]
  cases isTail b <;> rfl

theorem firstBytes_append (bytes bytes' : List UInt8) :
    firstBytes (bytes ++ bytes') = firstBytes bytes + firstBytes bytes' := List.countP_append

theorem firstBytes_le_from (state : State) (bytes : List UInt8) :
    firstBytes bytes + owing state ≤ (decodeFrom state bytes).length := by
  induction bytes generalizing state with
  | nil => cases state <;> simp [firstBytes, owing, decodeFrom, finish]
  | cons b bytes ih =>
    have hstep := firstBytes_step state b
    have hrest := ih (step state b.toNat).2
    rw [firstBytes_cons, decodeFrom, List.length_append]
    omega

/-- **A decoding** has a character for every byte that begins one. -/
theorem firstBytes_le (bytes : List UInt8) : firstBytes bytes ≤ (decode bytes).length :=
  firstBytes_le_from none bytes

/-- It has one more where the first byte should go on with a character. -/
theorem firstBytes_lt {b : UInt8} (hb : isTail b = true) (bytes : List UInt8) :
    firstBytes (b :: bytes) < (decode (b :: bytes)).length := by
  have hfirst := length_first b.toNat
  have hrest := firstBytes_le_from (first b.toNat).2 bytes
  rw [firstBytes_cons, if_pos hb, decode, decodeFrom, step, List.length_append]
  omega

/-! ### Cuts -/

/-- The encoding of a character is a first byte with bytes that go on with it. -/
theorem utf8EncodeChar_eq_cons (c : Char) : ∃ b tails, String.utf8EncodeChar c = b :: tails ∧
    isTail b = false ∧ ∀ x ∈ tails, isTail x = true := by
  have hvalid : c.val.toNat < 0xD800 ∨ 0xDFFF < c.val.toNat ∧ c.val.toNat < 0x110000 := c.valid
  unfold String.utf8EncodeChar
  dsimp only
  generalize c.val.toNat = v at hvalid
  have htail : ∀ n, isTail (UInt8.ofNat (n % 64 + 128)) = true := by
    intro n
    simp only [isTail, toNat_ofNat (show n % 64 + 128 < 256 by omega), Bool.and_eq_true,
      decide_eq_true_eq]
    omega
  have hfirst : ∀ {n}, n < 256 → n < 128 ∨ 191 < n → isTail (UInt8.ofNat n) = false := by
    intro n hn hout
    rw [isTail, toNat_ofNat hn, Bool.and_eq_false_iff, decide_eq_false_iff_not,
      decide_eq_false_iff_not]
    omega
  split_ifs
  · exact ⟨_, [], rfl, hfirst (by omega) (by omega), by simp⟩
  · exact ⟨_, _, rfl, hfirst (by omega) (by omega), List.forall_mem_singleton.mpr (htail _)⟩
  · exact ⟨_, _, rfl, hfirst (by omega) (by omega),
      List.forall_mem_cons.mpr ⟨htail _, List.forall_mem_singleton.mpr (htail _)⟩⟩
  · exact ⟨_, _, rfl, hfirst (by omega) (by omega), List.forall_mem_cons.mpr ⟨htail _,
      List.forall_mem_cons.mpr ⟨htail _, List.forall_mem_singleton.mpr (htail _)⟩⟩⟩

theorem firstBytes_encode (chars : List Char) : firstBytes (encode chars) = chars.length := by
  induction chars with
  | nil => rfl
  | cons c chars ih =>
    obtain ⟨b, tails, hc, hb, htails⟩ := utf8EncodeChar_eq_cons c
    have hnone : firstBytes tails = 0 := by
      refine List.countP_eq_zero.mpr fun x hx => ?_
      simp [htails x hx]
    rw [encode_cons, firstBytes_append, hc, firstBytes_cons, hb, hnone, ih, List.length_cons]
    simp only [Bool.false_eq_true, if_false]
    omega

/-- **A valid sequence** can be cut where a character begins. -/
theorem valid_of_append {bytes bytes' : List UInt8} (h : Valid (bytes ++ bytes'))
    (hcut : ∀ b ∈ bytes'.head?, isTail b = false) : Valid bytes ∧ Valid bytes' := by
  obtain ⟨chars, hchars⟩ := h
  induction chars generalizing bytes with
  | nil =>
    obtain ⟨rfl, rfl⟩ := List.append_eq_nil_iff.mp hchars
    exact ⟨⟨[], rfl⟩, ⟨[], rfl⟩⟩
  | cons c chars ih =>
    rcases bytes with _ | ⟨a, bytes⟩
    · exact ⟨⟨[], rfl⟩, ⟨c :: chars, hchars⟩⟩
    · obtain ⟨b, tails, hc, hb, htails⟩ := utf8EncodeChar_eq_cons c
      rw [encode_cons] at hchars
      -- the cut is not inside of the first character, whose other bytes are tails
      rcases List.append_eq_append_iff.mp hchars with ⟨more, hmore, hbytes'⟩ | ⟨more, hbytes, hmore⟩
      · rcases more with _ | ⟨x, more⟩
        · rw [List.append_nil] at hmore
          exact ⟨⟨[c], by rw [encode_cons, hmore, encode_nil, List.append_nil]⟩, ⟨chars, hbytes'⟩⟩
        · rw [hc, List.cons_append] at hmore
          have hx : isTail x = true := by
            refine htails x ?_
            rw [(List.cons.inj hmore).2]
            exact List.mem_append_right _ List.mem_cons_self
          have hnot := hcut x (by rw [hbytes']; rfl)
          rw [hx] at hnot
          cases hnot
      · obtain ⟨⟨chars', hleft⟩, hright⟩ := ih hmore.symm
        exact ⟨⟨c :: chars', by rw [hbytes, hleft, encode_cons]⟩, hright⟩

theorem firstBytes_le_pieces (pieces : List (List UInt8)) :
    firstBytes pieces.flatten ≤ (pieces.flatMap decode).length := by
  induction pieces with
  | nil => simp [firstBytes]
  | cons piece pieces ih =>
    have hpiece := firstBytes_le piece
    rw [List.flatten_cons, firstBytes_append, List.flatMap_cons, List.length_append]
    omega

/-- Pieces that begin in the middle of a character decode to more than its characters. -/
theorem firstBytes_lt_pieces {pieces : List (List UInt8)} {b : UInt8}
    (hb : b ∈ pieces.flatten.head?) (htail : isTail b = true) :
    firstBytes pieces.flatten < (pieces.flatMap decode).length := by
  induction pieces with
  | nil => cases hb
  | cons piece pieces ih =>
    rw [List.flatten_cons, firstBytes_append, List.flatMap_cons, List.length_append]
    rcases piece with _ | ⟨a, piece⟩
    · have hrest := ih hb
      have hnil := firstBytes_le []
      omega
    · obtain rfl := Option.some.inj hb
      have hpiece := firstBytes_lt htail piece
      have hrest := firstBytes_le_pieces pieces
      omega

/-- Valid pieces make a valid sequence. -/
theorem valid_flatten {pieces : List (List UInt8)} (h : ∀ piece ∈ pieces, Valid piece) :
    Valid pieces.flatten := by
  induction pieces with
  | nil => exact ⟨[], rfl⟩
  | cons piece pieces ih =>
    obtain ⟨⟨chars, rfl⟩, hrest⟩ := List.forall_mem_cons.mp h
    obtain ⟨more, hmore⟩ := ih hrest
    exact ⟨chars ++ more, by rw [List.flatten_cons, hmore, encode_append]⟩

/-- **Pieces of a valid sequence** decode to its characters, one by one, exactly when the cuts are
between characters. -/
theorem flatMap_decode_iff {pieces : List (List UInt8)} (h : Valid pieces.flatten) :
    pieces.flatMap decode = decode pieces.flatten ↔ ∀ piece ∈ pieces, Valid piece := by
  induction pieces with
  | nil => simp [decode, decodeFrom, finish]
  | cons piece pieces ih =>
    rw [List.flatten_cons] at h
    rw [List.flatMap_cons, List.flatten_cons, List.forall_mem_cons]
    constructor
    · intro heq
      have hcut : ∀ b ∈ pieces.flatten.head?, isTail b = false := by
        intro b hb
        by_contra htail
        have hlost := firstBytes_lt_pieces hb ((Bool.not_eq_false _).mp htail)
        have hlength := congrArg List.length heq
        have hpiece := firstBytes_le piece
        obtain ⟨chars, hchars⟩ := h
        have hall := firstBytes_encode chars
        rw [hchars, decode_encode, List.length_append] at hlength
        rw [← hchars, firstBytes_append] at hall
        omega
      obtain ⟨hpiece, hrest⟩ := valid_of_append h hcut
      rw [decode_append hpiece] at heq
      exact ⟨hpiece, (ih hrest).mp (List.append_cancel_left heq)⟩
    · rintro ⟨hpiece, hrest⟩
      rw [decode_append hpiece, (ih (valid_flatten hrest)).mpr hrest]

end Utf8
