import Mathlib.Data.List.Basic

/-! Base64 with padding (RFC 4648, section 4), and the same text in lines of 76
characters, each ended by a newline (RFC 2045, section 6.8). -/

namespace Base64

def alphabet : List Char :=
  ['A', 'B', 'C', 'D', 'E', 'F', 'G', 'H', 'I', 'J', 'K', 'L', 'M', 'N', 'O', 'P',
    'Q', 'R', 'S', 'T', 'U', 'V', 'W', 'X', 'Y', 'Z', 'a', 'b', 'c', 'd', 'e', 'f',
    'g', 'h', 'i', 'j', 'k', 'l', 'm', 'n', 'o', 'p', 'q', 'r', 's', 't', 'u', 'v',
    'w', 'x', 'y', 'z', '0', '1', '2', '3', '4', '5', '6', '7', '8', '9', '+', '/']

def digit (n : Nat) : Char := alphabet.getD n '='

def value (c : Char) : Option Nat := alphabet.idxOf? c

/-- Three octets as one number of 24 bits. -/
def join (a b c : UInt8) : Nat := 65536 * a.toNat + 256 * b.toNat + c.toNat

def split (n : Nat) : List UInt8 := [.ofNat (n / 65536), .ofNat (n / 256 % 256), .ofNat (n % 256)]

def digits (n : Nat) : List Char :=
  [digit (n / 262144), digit (n / 4096 % 64), digit (n / 64 % 64), digit (n % 64)]

def encode : List UInt8 → List Char
  | [] => []
  | [a] => (digits (join a 0 0)).take 2 ++ ['=', '=']
  | [a, b] => (digits (join a b 0)).take 3 ++ ['=']
  | a :: b :: c :: rest => digits (join a b c) ++ encode rest

/-- The octets of a padded text without any other characters; spare bits are ignored. -/
def decode : List Char → Option (List UInt8)
  | [] => some []
  | d₁ :: d₂ :: d₃ :: d₄ :: rest => do
    let n₁ ← value d₁
    let n₂ ← value d₂
    if d₃ = '=' ∧ d₄ = '=' ∧ rest = [] then
      return (split (262144 * n₁ + 4096 * n₂)).take 1
    let n₃ ← value d₃
    if d₄ = '=' ∧ rest = [] then
      return (split (262144 * n₁ + 4096 * n₂ + 64 * n₃)).take 2
    let n₄ ← value d₄
    let octets ← decode rest
    return split (262144 * n₁ + 4096 * n₂ + 64 * n₃ + n₄) ++ octets
  | _ => none

def lineLength : Nat := 76

/-- A newline follows each group that fills its line. -/
def encodeLinesFrom (column : Nat) : List UInt8 → List Char
  | a :: b :: c :: rest =>
    digits (join a b c) ++
      if column + 4 < lineLength then encodeLinesFrom (column + 4) rest
      else '\n' :: encodeLinesFrom 0 rest
  | rest => encode rest

def encodeLines (octets : List UInt8) : List Char := encodeLinesFrom 0 octets

theorem value_digit {n : Nat} (h : n < 64) : value (digit n) = some n := by
  have hall : ∀ m < 64, value (digit m) = some m := by decide
  exact hall n h

theorem value_pad : value '=' = none := by decide

theorem value_newline : value '\n' = none := by decide

theorem digit_ne {n : Nat} (h : n < 64) {c : Char} (hc : value c = none) : digit n ≠ c := by
  intro heq
  have hv := value_digit h
  rw [heq, hc] at hv
  exact absurd hv (by simp)

theorem digit_ne_newline (n : Nat) : digit n ≠ '\n' := by
  by_cases h : n < 64
  · exact digit_ne h value_newline
  · have hnone : alphabet[n]? = none := List.getElem?_eq_none (Nat.le_of_not_lt h)
    rw [digit, List.getD_eq_getElem?_getD, hnone]
    decide

theorem toNat_zero : (0 : UInt8).toNat = 0 := rfl

theorem join_lt (a b c : UInt8) : join a b c < 16777216 := by
  have ha := a.toNat_lt
  have hb := b.toNat_lt
  have hc := c.toNat_lt
  simp only [join]
  omega

theorem split_join (a b c : UInt8) : split (join a b c) = [a, b, c] := by
  have ha := a.toNat_lt
  have hb := b.toNat_lt
  have hc := c.toNat_lt
  have h₁ : join a b c / 65536 = a.toNat := by
    simp only [join]
    omega
  have h₂ : join a b c / 256 % 256 = b.toNat := by
    simp only [join]
    omega
  have h₃ : join a b c % 256 = c.toNat := by
    simp only [join]
    omega
  simp only [split, h₁, h₂, h₃, UInt8.ofNat_toNat]

theorem digits_sum (n : Nat) :
    262144 * (n / 262144) + 4096 * (n / 4096 % 64) + 64 * (n / 64 % 64) + n % 64 = n := by
  omega

theorem decode_group {n : Nat} (hn : n < 16777216) (rest : List Char) :
    decode (digits n ++ rest) = (decode rest).map fun octets => split n ++ octets := by
  have h₁ : n / 262144 < 64 := by omega
  have h₂ : n / 4096 % 64 < 64 := Nat.mod_lt _ (by decide)
  have h₃ : n / 64 % 64 < 64 := Nat.mod_lt _ (by decide)
  have h₄ : n % 64 < 64 := Nat.mod_lt _ (by decide)
  simp only [digits, List.cons_append, List.nil_append, decode, value_digit h₁, value_digit h₂,
    value_digit h₃, value_digit h₄, digit_ne h₃ value_pad, digit_ne h₄ value_pad, false_and,
    if_false, Option.bind_eq_bind, Option.bind_some, digits_sum]
  cases decode rest <;> rfl

theorem decode_encode (octets : List UInt8) : decode (encode octets) = some octets := by
  induction octets using encode.induct with
  | case1 => rfl
  | case2 a =>
    have hlt := join_lt a 0 0
    have h₁ : join a 0 0 / 262144 < 64 := by omega
    have h₂ : join a 0 0 / 4096 % 64 < 64 := Nat.mod_lt _ (by decide)
    have hsum : 262144 * (join a 0 0 / 262144) + 4096 * (join a 0 0 / 4096 % 64) = join a 0 0 := by
      simp only [join, toNat_zero]
      omega
    simp only [encode, digits, List.take, List.cons_append, List.nil_append, decode, value_digit h₁,
      value_digit h₂, Option.bind_eq_bind, Option.bind_some, and_self, if_true, hsum, split_join]
    rfl
  | case3 a b =>
    have hlt := join_lt a b 0
    have h₁ : join a b 0 / 262144 < 64 := by omega
    have h₂ : join a b 0 / 4096 % 64 < 64 := Nat.mod_lt _ (by decide)
    have h₃ : join a b 0 / 64 % 64 < 64 := Nat.mod_lt _ (by decide)
    have hsum : 262144 * (join a b 0 / 262144) + 4096 * (join a b 0 / 4096 % 64) +
        64 * (join a b 0 / 64 % 64) = join a b 0 := by
      simp only [join, toNat_zero]
      omega
    simp only [encode, digits, List.take, List.cons_append, List.nil_append, decode, value_digit h₁,
      value_digit h₂, value_digit h₃, digit_ne h₃ value_pad, false_and, Option.bind_eq_bind,
      Option.bind_some, and_self, if_true, if_false, hsum, split_join]
    rfl
  | case4 a b c rest ih =>
    rw [encode, decode_group (join_lt a b c), ih, split_join]
    rfl

theorem length_digits (n : Nat) : (digits n).length = 4 := rfl

theorem length_encode (octets : List UInt8) :
    (encode octets).length = 4 * ((octets.length + 2) / 3) := by
  induction octets using encode.induct with
  | case1 => rfl
  | case2 a => simp [encode, digits]
  | case3 a b => simp [encode, digits]
  | case4 a b c rest ih =>
    rw [encode, List.length_append, length_digits, ih]
    simp only [List.length_cons]
    omega

theorem digit_ascii (n : Nat) : (digit n).toNat < 128 := by
  have hall : alphabet.all (fun c => decide (c.toNat < 128)) = true := rfl
  by_cases h : n < alphabet.length
  · rw [digit, List.getD_eq_getElem?_getD, List.getElem?_eq_getElem h]
    exact of_decide_eq_true (List.all_eq_true.mp hall _ (List.getElem_mem h))
  · rw [digit, List.getD_eq_getElem?_getD, List.getElem?_eq_none (Nat.le_of_not_lt h)]
    decide

theorem ascii_of_mem_digits {n : Nat} {c : Char} (h : c ∈ digits n) : c.toNat < 128 := by
  simp only [digits, List.mem_cons, List.not_mem_nil, or_false] at h
  rcases h with rfl | rfl | rfl | rfl <;> exact digit_ascii _

theorem ascii_of_mem_encode {octets : List UInt8} {c : Char} (h : c ∈ encode octets) : c.toNat < 128 := by
  induction octets using encode.induct with
  | case1 => exact absurd h List.not_mem_nil
  | case2 a =>
    rw [encode, List.mem_append] at h
    rcases h with h | h
    · exact ascii_of_mem_digits (List.mem_of_mem_take h)
    · simp only [List.mem_cons, List.not_mem_nil, or_false, or_self] at h
      subst h
      decide
  | case3 a b =>
    rw [encode, List.mem_append] at h
    rcases h with h | h
    · exact ascii_of_mem_digits (List.mem_of_mem_take h)
    · rw [List.mem_singleton.mp h]
      decide
  | case4 a b c' rest ih =>
    rw [encode, List.mem_append] at h
    rcases h with h | h
    · exact ascii_of_mem_digits h
    · exact ih h

theorem newline_not_mem_digits (n : Nat) : '\n' ∉ digits n := by
  simp [digits, Ne.symm (digit_ne_newline _)]

theorem newline_not_mem_encode (octets : List UInt8) : '\n' ∉ encode octets := by
  induction octets using encode.induct with
  | case1 => exact List.not_mem_nil
  | case2 a => simp [encode, digits, Ne.symm (digit_ne_newline _)]
  | case3 a b => simp [encode, digits, Ne.symm (digit_ne_newline _)]
  | case4 a b c rest ih =>
    rw [encode, List.mem_append, not_or]
    exact ⟨newline_not_mem_digits _, ih⟩

theorem encodeLinesFrom_eq_iff (octets : List UInt8) {column : Nat} (hcol : column < lineLength) :
    encodeLinesFrom column octets = encode octets ↔ column + 4 * (octets.length / 3) < lineLength := by
  induction octets using encode.induct generalizing column with
  | case1 => exact ⟨fun _ => hcol, fun _ => rfl⟩
  | case2 a => exact ⟨fun _ => by simpa using hcol, fun _ => rfl⟩
  | case3 a b => exact ⟨fun _ => by simpa using hcol, fun _ => rfl⟩
  | case4 a b c rest ih =>
    have hlen : (a :: b :: c :: rest).length / 3 = rest.length / 3 + 1 := by
      simp only [List.length_cons]
      omega
    rw [encodeLinesFrom, encode, List.append_cancel_left_eq, hlen]
    by_cases hfull : column + 4 < lineLength
    · rw [if_pos hfull, ih hfull]
      omega
    · rw [if_neg hfull]
      constructor
      · intro heq
        exact absurd (heq ▸ List.mem_cons_self) (newline_not_mem_encode rest)
      · intro hlt
        omega

theorem encodeLines_eq_iff (octets : List UInt8) :
    encodeLines octets = encode octets ↔ octets.length < 57 := by
  rw [encodeLines, encodeLinesFrom_eq_iff octets (by decide)]
  simp only [lineLength]
  omega

theorem filter_encodeLinesFrom (octets : List UInt8) (column : Nat) :
    (encodeLinesFrom column octets).filter (· ≠ '\n') = encode octets := by
  have hkept : ∀ l : List Char, '\n' ∉ l → l.filter (· ≠ '\n') = l := by
    intro l hl
    rw [List.filter_eq_self]
    intro c hc
    have hne : c ≠ '\n' := fun h => hl (h ▸ hc)
    simpa using hne
  induction octets using encode.induct generalizing column with
  | case1 => rfl
  | case2 a => exact hkept _ (newline_not_mem_encode [a])
  | case3 a b => exact hkept _ (newline_not_mem_encode [a, b])
  | case4 a b c rest ih =>
    rw [encodeLinesFrom, encode, List.filter_append, hkept _ (newline_not_mem_digits _)]
    congr 1
    split
    · exact ih _
    · rw [List.filter_cons_of_neg (by simp)]
      exact ih 0

theorem filter_encodeLines (octets : List UInt8) :
    (encodeLines octets).filter (· ≠ '\n') = encode octets := filter_encodeLinesFrom octets 0

example : encode [102, 111, 111, 98] = ['Z', 'm', '9', 'v', 'Y', 'g', '=', '='] := by decide

end Base64
