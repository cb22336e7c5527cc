import ConstructVeil.Util.Checked

/-!
This module contains texts in UTF-8: a text is the list of its characters, but its length and the
indices into it count bytes.
-/

def hexDigit (c : Char) : Option Nat :=
  if '0' ≤ c ∧ c ≤ '9' then
    some (c.toNat - '0'.toNat)
  else if 'a' ≤ c ∧ c ≤ 'f' then
    some (c.toNat - 'a'.toNat + 10)
  else if 'A' ≤ c ∧ c ≤ 'F' then
    some (c.toNat - 'A'.toNat + 10)
  else
    none

theorem isSome_hexDigit_iff (c : Char)
    : (hexDigit c).isSome = true
        ↔
      ('0' ≤ c ∧ c ≤ '9') ∨ ('a' ≤ c ∧ c ≤ 'f') ∨ ('A' ≤ c ∧ c ≤ 'F') := by
  unfold hexDigit
  split
  . next h => simp [h]
  . next h =>
    split
    . next h' => simp [h']
    . next h' =>
      split
      . next h'' => simp [h'']
      . next h'' => simp [h, h', h'']

theorem toNat_lt_of_hexDigit {c : Char} (h : (hexDigit c).isSome = true) : c.toNat < 128 := by
  have hle : ∀ c' : Char, c ≤ c' → c'.toNat < 128 → c.toNat < 128 := by
    intro c' h hlt
    exact Nat.lt_of_le_of_lt h hlt
  rw [isSome_hexDigit_iff] at h
  rcases h with ⟨_, h⟩ | ⟨_, h⟩ | ⟨_, h⟩
  . exact hle '9' h (by decide)
  . exact hle 'f' h (by decide)
  . exact hle 'F' h (by decide)

theorem hexDigit_eq_some {c : Char} {d : Nat} (h : hexDigit c = some d)
    : d < 16 ∧ Nat.digitChar d = c.toLower := by
  have hall : ∀ n : Fin 128, (hexDigit (Char.ofNat n.val)).all (fun d =>
      decide (d < 16 ∧ Nat.digitChar d = (Char.ofNat n.val).toLower)) = true := by
    decide +kernel
  have hlt : c.toNat < 128 := toNat_lt_of_hexDigit (by rw [h]; rfl)
  have := hall ⟨c.toNat, hlt⟩
  simpa [Char.ofNat_toNat, h] using this

namespace Str

def len (s : List Char) : Nat := (s.map Char.utf8Size).sum

/--
The slices up to the index `n` and from there on.
-/
def splitAt (n : Nat) (s : List Char) : Checked (List Char × List Char) :=
  if n = 0 then
    .ok ([], s)
  else
    match s with
    | [] => .error .outOfBounds
    | c :: s =>
      if c.utf8Size ≤ n then
        match splitAt (n - c.utf8Size) s with
        | .ok (slice, rest) => .ok (c :: slice, rest)
        | .error e => .error e
      else
        .error .charBoundary

/--
A `u8` in base 16. A sign in front of the digits is read as well.
-/
def u8FromStrRadix16 (src : List Char) : Option UInt8 :=
  match src with
  | [] => none
  | ['+'] => none
  | ['-'] => none
  | '+' :: digits => go 0 digits
  | digits => go 0 digits
where
  go (result : Nat) : List Char → Option UInt8
    | [] => some (UInt8.ofNat result)
    | c :: digits =>
      match hexDigit c with
      | none => none
      | some d =>
        if result * 16 + d < 256 then
          go (result * 16 + d) digits
        else
          none

def isWhitespace (c : Char) : Bool :=
  (9 ≤ c.toNat && c.toNat ≤ 13) || (0x2000 ≤ c.toNat && c.toNat ≤ 0x200a) ||
    [0x20, 0x85, 0xa0, 0x1680, 0x2028, 0x2029, 0x202f, 0x205f, 0x3000].contains c.toNat

def trim (s : String) : String :=
  String.ofList ((s.toList.dropWhile isWhitespace).reverse.dropWhile isWhitespace).reverse

@[simp]
theorem len_cons (c : Char) (s : List Char) : len (c :: s) = c.utf8Size + len s := by
  simp [len]

@[simp]
theorem splitAt_zero (s : List Char) : splitAt 0 s = .ok ([], s) := by
  unfold splitAt
  rfl

theorem trim_of_forall {s : String} (h : ∀ c ∈ s.toList, isWhitespace c = false) : trim s = s := by
  have hdrop : ∀ t : List Char, (∀ c ∈ t, isWhitespace c = false) → t.dropWhile isWhitespace
      = t := by
    intro t ht
    cases t with
    | nil => rfl
    | cons c t => rw [List.dropWhile_cons_of_neg (by simp [ht c List.mem_cons_self])]
  rw [trim, hdrop _ h, hdrop _ (by simpa using h), List.reverse_reverse, String.ofList_toList]

/--
The two bytes at the front of a text are two ASCII characters or one character of two bytes.
-/
inductive FrontTwo : List Char → List Char → List Char → Prop where
  | ascii {c c' : Char} (rest : List Char) (hc : c.utf8Size = 1) (hc' : c'.utf8Size = 1)
    : FrontTwo (c :: c' :: rest) [c, c'] rest
  | wide {c : Char} (rest : List Char) (hc : c.utf8Size = 2) : FrontTwo (c :: rest) [c] rest

theorem FrontTwo.len {s slice rest : List Char} (h : FrontTwo s slice rest)
    : Str.len s = Str.len rest + 2 := by
  cases h with
  | ascii rest hc hc' =>
    rw [len_cons, len_cons, hc, hc']
    omega
  | wide rest hc =>
    rw [len_cons, hc]
    omega

theorem splitAt_two_of_front {s slice rest : List Char} (h : FrontTwo s slice rest)
    : splitAt 2 s = .ok (slice, rest) := by
  cases h with
  | ascii rest hc hc' => simp [splitAt, hc, hc']
  | wide rest hc => simp [splitAt, hc]

theorem splitAt_two_of_not_front {s : List Char} (hlen : len s % 2 = 0) (hne : s ≠ [])
    (h : ∀ slice rest, ¬FrontTwo s slice rest) : splitAt 2 s = .error .charBoundary := by
  cases s with
  | nil => contradiction
  | cons c s =>
    have hpos := c.utf8Size_pos
    by_cases hc : c.utf8Size = 1
    . cases s with
      | nil => simp [len, hc] at hlen
      | cons c' s =>
        have hpos' := c'.utf8Size_pos
        have hc' : c'.utf8Size ≠ 1 := fun hc' => h _ _ (.ascii s hc hc')
        simp [splitAt, hc, show ¬c'.utf8Size ≤ 1 by omega]
    . have hc2 : c.utf8Size ≠ 2 := fun hc2 => h _ _ (.wide s hc2)
      simp [splitAt, show ¬c.utf8Size ≤ 2 by omega]

theorem utf8Size_of_hexDigit {c : Char} (h : (hexDigit c).isSome = true) : c.utf8Size = 1 := by
  have hlt := toNat_lt_of_hexDigit h
  rw [Char.utf8Size_eq_one_iff]
  have : c.val.toNat ≤ 127 := Nat.le_of_lt_succ hlt
  exact this

theorem u8FromStrRadix16_wide {c : Char} (h : c.utf8Size = 2) : u8FromStrRadix16 [c] = none := by
  have hdigit : hexDigit c = none := by
    rw [← Option.not_isSome_iff_eq_none]
    intro hsome
    rw [utf8Size_of_hexDigit hsome] at h
    cases h
  unfold u8FromStrRadix16
  split
  . rfl
  . rfl
  . rfl
  . next heq =>
    injection heq with hc _
    subst hc
    cases h
  . next heq _ _ _ =>
    rw [u8FromStrRadix16.go, hdigit]

theorem go_one (c : Char) : u8FromStrRadix16.go 0 [c] = (hexDigit c).map UInt8.ofNat := by
  cases hc : hexDigit c with
  | none => simp [u8FromStrRadix16.go, hc]
  | some d =>
    have := (hexDigit_eq_some hc).1
    simp [u8FromStrRadix16.go, hc, show d < 256 by omega]

theorem go_two (c c' : Char)
    : u8FromStrRadix16.go 0 [c, c']
        =
      (hexDigit c).bind fun hi => (hexDigit c').map fun lo => UInt8.ofNat (hi * 16 + lo) := by
  cases hc : hexDigit c with
  | none => simp [u8FromStrRadix16.go, hc]
  | some hi =>
    have hhi := (hexDigit_eq_some hc).1
    cases hc' : hexDigit c' with
    | none => simp [u8FromStrRadix16.go, hc, hc']
    | some lo =>
      have hlo := (hexDigit_eq_some hc').1
      simp [u8FromStrRadix16.go, hc, hc', show hi < 256 by omega, show hi * 16 + lo < 256 by omega]

theorem u8FromStrRadix16_two (c c' : Char)
    : u8FromStrRadix16 [c, c']
        =
      if c = '+' then
        (hexDigit c').map UInt8.ofNat
      else
        (hexDigit c).bind fun hi => (hexDigit c').map fun lo => UInt8.ofNat (hi * 16 + lo) := by
  rw [← go_one, ← go_two]
  split
  . next h =>
    subst h
    rfl
  . next h =>
    unfold u8FromStrRadix16
    split
    . contradiction
    . next heq => cases heq
    . next heq => cases heq
    . next heq =>
      injection heq with heq _
      contradiction
    . rfl

end Str
