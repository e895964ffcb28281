import Mathlib.Data.List.TakeWhile
import SelectorXPath.Text.Basic

/-!
# Operations that can fail

Characters are not what a machine stores. It stores bytes and numbers of bounded size, and it stops
where a text is cut inside a character or behind its end, where a list is asked for an entry that
it does not have, and where a number leaves its range. The definitions below are these operations.
A computation that is made of them has no value when one of them fails. A loop is given a number of
turns, and a computation in which it takes more of them has no value either.

Offsets here are plain numbers of bytes. That a text may be cut at one of them has to be shown each
time; it can, because every offset is the size of some characters in front. Sums of offsets are not
checked: where a text may be cut at a sum, the sum is no larger than the text.
-/

namespace SelectorXPath

/-- The value of a computation that stops at the first operation that fails. -/
abbrev Checked : Type → Type := Option

namespace Checked

open SelectorXPath.Text

/-- What a text holds in front of a byte offset, which must not lie inside a character or behind the
end. -/
def uptoByte? : Text → Nat → Checked Text
  | _, 0 => some []
  | [], _ + 1 => none
  | c :: t, n + 1 =>
    if n + 1 < c.utf8Size then none else (uptoByte? t (n + 1 - c.utf8Size)).map (c :: ·)

/-- A number less another one, where numbers have no sign. -/
def less? (n k : Nat) : Checked Nat :=
  if k ≤ n then some (n - k) else none

def next? (largest n : Nat) : Checked Nat :=
  if n < largest then some (n + 1) else none

/-- The result of an operation on numbers with sign, which has 64 bits. -/
def signed? (n : Int) : Checked Int :=
  if -9223372036854775808 ≤ n ∧ n ≤ 9223372036854775807 then some n else none

def between? (t : Text) (first second : Nat) : Checked Text := do
  let rest ← fromByte? t first
  let length ← less? second first
  uptoByte? rest length

/-- What stands in front of an offset between two characters can be cut off. -/
theorem uptoByte?_append (front back : Text) :
    uptoByte? (front ++ back) (byteLength front) = some front := by
  induction front with
  | nil => cases back <;> rfl
  | cons c front ih =>
    have hSize := c.utf8Size_pos
    obtain ⟨n, hn⟩ : ∃ n, byteLength (c :: front) = n + 1 :=
      Nat.exists_eq_succ_of_ne_zero (by simp only [byteLength]; omega)
    have hLess : n + 1 - c.utf8Size = byteLength front := by
      simp only [byteLength] at hn
      omega
    have hNotInside : ¬n + 1 < c.utf8Size := by
      simp only [byteLength] at hn
      omega
    rw [hn, List.cons_append, uptoByte?, if_neg hNotInside, hLess, ih]
    rfl

/-- A text may be cut behind any number of its characters. -/
theorem fromByte?_take (t : Text) (n : Nat) :
    fromByte? t (byteLength (t.take n)) = some (t.drop n) :=
  fromByte?_eq_some_iff.2 ⟨t.take n, (List.take_append_drop n t).symm, rfl⟩

theorem uptoByte?_take (t : Text) (n : Nat) :
    uptoByte? t (byteLength (t.take n)) = some (t.take n) := by
  have h := uptoByte?_append (t.take n) (t.drop n)
  rwa [List.take_append_drop] at h

/-- The character in front of a text is cut off at its size. -/
theorem fromByte?_cons (c : Char) (t : Text) : fromByte? (c :: t) c.utf8Size = some t := by
  simpa [byteLength] using fromByte?_append [c] t

/-- A difference that is not negative has a value. -/
theorem less?_of_le {n k : Nat} (h : k ≤ n) : less? n k = some (n - k) :=
  if_pos h

theorem less?_add (n k : Nat) : less? (n + k) k = some n := by
  rw [less?_of_le (Nat.le_add_left k n), Nat.add_sub_cancel]

/-- Numbers of this size fit into 64 bits by far. -/
theorem signed?_of_abs_le {n : Int} (h : n.natAbs ≤ 4294967296) : signed? n = some n :=
  if_pos (by omega)

/-- The text between two offsets is the one in the middle. -/
theorem between?_append (front middle back : Text) :
    between? (front ++ middle ++ back) (byteLength front) (byteLength front + byteLength middle) =
      some middle := by
  rw [List.append_assoc, between?, fromByte?_append, Nat.add_comm]
  simp only [Option.bind_eq_bind, Option.bind_some, less?_add, uptoByte?_append]

def firstByte? (p : Char → Bool) : Text → Option Nat
  | [] => none
  | c :: t => if p c then some 0 else (firstByte? p t).map (c.utf8Size + ·)

/-- Where no offset is found there is no such character. -/
theorem firstByte?_of_none {p : Char → Bool} {t : Text} (h : firstByte? p t = none) :
    ∀ c ∈ t, p c = false := by
  induction t with
  | nil => simp
  | cons d t ih =>
    cases hp : p d with
    | true => simp [firstByte?, hp] at h
    | false =>
      have hRest : firstByte? p t = none := by simpa [firstByte?, hp] using h
      simpa [hp] using ih hRest

/-- A character that is found has none of its kind in front, and its offset is their size. -/
theorem exists_of_firstByte? {p : Char → Bool} {t : Text} {n : Nat}
    (h : firstByte? p t = some n) :
    ∃ front c back, t = front ++ c :: back ∧ (∀ d ∈ front, p d = false) ∧ p c = true ∧
      n = byteLength front := by
  induction t generalizing n with
  | nil => simp [firstByte?] at h
  | cons d t ih =>
    cases hp : p d with
    | true =>
      have hn : n = 0 := by simpa [firstByte?, hp] using h.symm
      exact ⟨[], d, t, rfl, by simp, hp, hn⟩
    | false =>
      obtain ⟨m, hm, rfl⟩ : ∃ m, firstByte? p t = some m ∧ d.utf8Size + m = n := by
        simpa [firstByte?, hp] using h
      obtain ⟨front, c, back, rfl, hFront, hc, rfl⟩ := ih hm
      exact ⟨d :: front, c, back, rfl, by simpa [hp] using hFront, hc, rfl⟩

/-- The size of the characters in front of the first one of a kind, or of all of them. -/
theorem firstByte?_getD (p : Char → Bool) (t : Text) :
    (firstByte? p t).getD (byteLength t) = byteLength (t.takeWhile fun c => !p c) := by
  induction t with
  | nil => rfl
  | cons c t ih =>
    cases hp : p c with
    | true => simp [firstByte?, hp, byteLength]
    | false =>
      rw [List.takeWhile_cons_of_pos (by simp [hp]), byteLength, byteLength, ← ih]
      cases hRest : firstByte? p t <;> simp [firstByte?, hp, hRest]

def bytes (t : Text) : List UInt8 :=
  t.flatMap String.utf8EncodeChar

/-- A test of ASCII characters as a test of bytes. -/
def onByte (p : Char → Bool) (b : UInt8) : Bool :=
  b.toNat < 128 && p (Char.ofNat b.toNat)

/-- A character of ASCII is encoded as its code, in one byte. -/
theorem utf8EncodeChar_of_ascii {c : Char} (h : c.toNat < 128) :
    String.utf8EncodeChar c = [UInt8.ofNat c.toNat] := by
  have hVal : c.val.toNat ≤ 127 := Nat.le_of_lt_succ h
  simp only [String.utf8EncodeChar, hVal, if_true]
  rfl

/-- A character beyond ASCII begins with a byte that is none of ASCII. -/
theorem exists_utf8EncodeChar {c : Char} (h : ¬c.toNat < 128) :
    ∃ b more, String.utf8EncodeChar c = b :: more ∧ ¬b.toNat < 128 := by
  have hVal : ¬c.val.toNat ≤ 127 := fun hLe => h (Nat.lt_succ_of_le hLe)
  simp only [String.utf8EncodeChar, hVal, if_false]
  split
  · exact ⟨_, _, rfl, by simp only [UInt8.toNat_ofNat']; omega⟩
  · split
    · exact ⟨_, _, rfl, by simp only [UInt8.toNat_ofNat']; omega⟩
    · exact ⟨_, _, rfl, by simp only [UInt8.toNat_ofNat']; omega⟩

/-- Characters of ASCII may be counted by their bytes: the first byte of any other character ends
the count, as the character would. -/
theorem length_takeWhile_bytes {p : Char → Bool} (hp : ∀ c, p c = true → c.toNat < 128) (t : Text) :
    ((bytes t).takeWhile (onByte p)).length = (t.takeWhile p).length := by
  induction t with
  | nil => rfl
  | cons c t ih =>
    rw [bytes, List.flatMap_cons]
    by_cases hAscii : c.toNat < 128
    · have hByte : onByte p (UInt8.ofNat c.toNat) = p c := by
        have hValue : (UInt8.ofNat c.toNat).toNat = c.toNat := by
          simp only [UInt8.toNat_ofNat']
          omega
        simp [onByte, hValue, hAscii]
      rw [utf8EncodeChar_of_ascii hAscii, List.singleton_append]
      cases hc : p c with
      | true =>
        rw [List.takeWhile_cons_of_pos (hByte.trans hc), List.takeWhile_cons_of_pos hc]
        simpa [bytes] using ih
      | false =>
        rw [List.takeWhile_cons_of_neg (by simp [hByte, hc]),
          List.takeWhile_cons_of_neg (by simp [hc])]
        rfl
    · obtain ⟨b, more, hBytes, hb⟩ := exists_utf8EncodeChar hAscii
      have hByte : ¬onByte p b = true := by simp [onByte, hb]
      rw [hBytes, List.cons_append, List.takeWhile_cons_of_neg hByte,
        List.takeWhile_cons_of_neg fun hc => hAscii (hp c hc)]
      rfl

/-- Characters of ASCII take one byte each. -/
theorem byteLength_of_ascii {t : Text} (h : ∀ c ∈ t, c.toNat < 128) : byteLength t = t.length := by
  induction t with
  | nil => rfl
  | cons c t ih =>
    have hSize : c.utf8Size = 1 := by
      rw [← String.length_utf8EncodeChar, utf8EncodeChar_of_ascii (h c List.mem_cons_self)]
      rfl
    have hRest := ih fun d hd => h d (List.mem_cons_of_mem _ hd)
    rw [byteLength, hSize, hRest, List.length_cons, Nat.add_comm]

end Checked

end SelectorXPath
