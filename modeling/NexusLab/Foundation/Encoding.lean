import Mathlib

/-! # Encodings that can be read back

An encoding into words over an alphabet `β` is decodable when the encoded value, and what follows
it, can be told from any word that begins with an encoding.  Decodable encodings compose: fields one
after another, optional values after a flag, lists after their length.  A byte-wise hash of such an
encoding separates words that differ in one place when every step of the hash is a bijection.

* `Decodes encode valid`: the values in `valid` can be read off the front of a word.
* `Decodes.option`, `Decodes.counted`, `Decodes.terminated`, `Decodes.stream`: optional values,
  lists with a length, lists with a terminator, and lists that go on to the end of the word.
* `foldl_ne_of_differInOne`: one different letter makes a different hash.
-/

namespace NexusLab.Foundation

variable {α β γ σ : Type}

/-- The values in `valid` can be read off the front of a word. -/
def Decodes (encode : α → List β) (valid : α → Prop) : Prop :=
  ∀ a b s t, valid a → valid b → encode a ++ s = encode b ++ t → a = b ∧ s = t

namespace Decodes

variable {encode : α → List β} {valid : α → Prop}

/-- Encodings of one length are decodable as soon as they differ. -/
theorem of_length {n : Nat} (length : ∀ a, (encode a).length = n)
    (injective : ∀ a b, valid a → valid b → encode a = encode b → a = b) :
    Decodes encode valid := by
  intro a b s t validA validB same
  have split := List.append_inj same ((length a).trans (length b).symm)
  exact ⟨injective a b validA validB split.1, split.2⟩

/-- An encoding is decodable when no encoding begins another. -/
theorem of_prefixFree
    (free : ∀ a b, valid a → valid b → encode a <+: encode b → a = b) : Decodes encode valid := by
  intro a b s t validA validB same
  have values : a = b := by
    rcases List.prefix_or_prefix_of_prefix (List.prefix_append (encode a) s)
      (same ▸ List.prefix_append (encode b) t) with front | front
    · exact free a b validA validB front
    · exact (free b a validB validA front).symm
  subst values
  exact ⟨rfl, List.append_cancel_left same⟩

/-- The encoding of a part that determines the whole. -/
theorem comap {encode : γ → List β} {valid : γ → Prop} (decodes : Decodes encode valid)
    {f : α → γ} {valid' : α → Prop} (isValid : ∀ a, valid' a → valid (f a))
    (injective : ∀ a b, valid' a → valid' b → f a = f b → a = b) :
    Decodes (fun a => encode (f a)) valid' := by
  intro a b s t validA validB same
  obtain ⟨parts, rest⟩ := decodes (f a) (f b) s t (isValid a validA) (isValid b validB) same
  exact ⟨injective a b validA validB parts, rest⟩

end Decodes

/-! ## Optional values -/

/-- A flag, and the value when there is one. -/
def encodeOption (flag : Bool → List β) (encode : α → List β) : Option α → List β
  | none => flag false
  | some a => flag true ++ encode a

theorem Decodes.option {flag : Bool → List β} {encode : α → List β} {valid : α → Prop}
    (flags : Decodes flag fun _ => True) (decodes : Decodes encode valid) :
    Decodes (encodeOption flag encode) (fun o => ∀ a ∈ o, valid a) := by
  intro a b s t validA validB same
  cases a with
  | none =>
    cases b with
    | none => exact ⟨rfl, (flags _ _ _ _ trivial trivial same).2⟩
    | some b =>
      rw [encodeOption, encodeOption, List.append_assoc] at same
      cases (flags _ _ _ _ trivial trivial same).1
  | some a =>
    rw [encodeOption, List.append_assoc] at same
    cases b with
    | none => cases (flags _ _ _ _ trivial trivial same).1
    | some b =>
      rw [encodeOption, List.append_assoc] at same
      have rest := (flags _ _ _ _ trivial trivial same).2
      obtain ⟨sameValue, rest⟩ := decodes a b s t (validA a rfl) (validB b rfl) rest
      exact ⟨by rw [sameValue], rest⟩

/-! ## Lists -/

section Lists

variable {encode : α → List β} {valid : α → Prop}

/-- Lists of one length need no separators. -/
theorem Decodes.flatMap (decodes : Decodes encode valid) :
    ∀ (as bs : List α) (s t : List β), as.length = bs.length → (∀ a ∈ as, valid a) →
      (∀ b ∈ bs, valid b) → as.flatMap encode ++ s = bs.flatMap encode ++ t → as = bs ∧ s = t
  | [], [], s, t, _, _, _, same => ⟨rfl, same⟩
  | a :: as, b :: bs, s, t, length, validAs, validBs, same => by
    simp only [List.flatMap_cons, List.append_assoc] at same
    obtain ⟨sameHead, rest⟩ := decodes a b _ _ (validAs a (List.mem_cons_self ..))
      (validBs b (List.mem_cons_self ..)) same
    obtain ⟨sameTail, rest⟩ := Decodes.flatMap decodes as bs s t (Nat.succ.inj length)
      (fun x member => validAs x (List.mem_cons_of_mem _ member))
      (fun x member => validBs x (List.mem_cons_of_mem _ member)) rest
    exact ⟨by rw [sameHead, sameTail], rest⟩

/-- The length of a list, then its members. -/
def encodeCounted (count : Nat → List β) (encode : α → List β) (as : List α) : List β :=
  count as.length ++ as.flatMap encode

theorem Decodes.counted {count : Nat → List β} {small : Nat → Prop} (counts : Decodes count small)
    (decodes : Decodes encode valid) :
    Decodes (encodeCounted count encode) (fun as => small as.length ∧ ∀ a ∈ as, valid a) := by
  intro as bs s t validAs validBs same
  simp only [encodeCounted, List.append_assoc] at same
  obtain ⟨length, rest⟩ := counts _ _ _ _ validAs.1 validBs.1 same
  exact decodes.flatMap as bs s t length validAs.2 validBs.2 rest

/-- The members of a list and then a letter that no encoding begins with. -/
theorem Decodes.terminated (decodes : Decodes encode valid) {stop : β}
    (starts : ∀ a, valid a → ∃ c rest, encode a = c :: rest ∧ c ≠ stop) :
    Decodes (fun as : List α => as.flatMap encode ++ [stop]) (fun as => ∀ a ∈ as, valid a) := by
  intro as
  induction as with
  | nil =>
    intro bs s t _ validBs same
    cases bs with
    | nil => exact ⟨rfl, (List.cons.inj same).2⟩
    | cons b bs =>
      obtain ⟨c, rest, first, differs⟩ := starts b (validBs b List.mem_cons_self)
      simp only [List.flatMap_nil, List.flatMap_cons, first, List.nil_append,
        List.cons_append] at same
      exact absurd (List.cons.inj same).1.symm differs
  | cons a as ih =>
    intro bs s t validAs validBs same
    cases bs with
    | nil =>
      obtain ⟨c, rest, first, differs⟩ := starts a (validAs a List.mem_cons_self)
      simp only [List.flatMap_nil, List.flatMap_cons, first, List.nil_append,
        List.cons_append] at same
      exact absurd (List.cons.inj same).1 differs
    | cons b bs =>
      simp only [List.flatMap_cons, List.append_assoc] at same
      obtain ⟨heads, rest⟩ := decodes a b _ _ (validAs a List.mem_cons_self)
        (validBs b List.mem_cons_self) same
      have again : (as.flatMap encode ++ [stop]) ++ s = (bs.flatMap encode ++ [stop]) ++ t := by
        simpa only [List.append_assoc] using rest
      obtain ⟨tails, rest⟩ := ih bs s t
        (fun x member => validAs x (List.mem_cons_of_mem _ member))
        (fun x member => validBs x (List.mem_cons_of_mem _ member)) again
      exact ⟨by rw [heads, tails], rest⟩

/-- A list that goes on to the end of the word, when no value has an empty encoding. -/
theorem Decodes.stream (decodes : Decodes encode valid) (nonempty : ∀ a, encode a ≠ []) :
    ∀ as bs : List α, (∀ a ∈ as, valid a) → (∀ b ∈ bs, valid b) →
      as.flatMap encode = bs.flatMap encode → as = bs
  | [], [], _, _, _ => rfl
  | [], b :: bs, _, _, same => by
    have empty : encode b = [] := by
      rw [List.flatMap_nil, List.flatMap_cons] at same
      exact (List.append_eq_nil_iff.mp same.symm).1
    exact absurd empty (nonempty b)
  | a :: as, [], _, _, same => by
    have empty : encode a = [] := by
      rw [List.flatMap_nil, List.flatMap_cons] at same
      exact (List.append_eq_nil_iff.mp same).1
    exact absurd empty (nonempty a)
  | a :: as, b :: bs, validAs, validBs, same => by
    simp only [List.flatMap_cons] at same
    obtain ⟨sameHead, rest⟩ := decodes a b _ _ (validAs a (List.mem_cons_self ..))
      (validBs b (List.mem_cons_self ..)) same
    have sameTail := Decodes.stream decodes nonempty as bs
      (fun x member => validAs x (List.mem_cons_of_mem _ member))
      (fun x member => validBs x (List.mem_cons_of_mem _ member)) rest
    rw [sameHead, sameTail]

end Lists

/-! ## Words of bytes -/

/-- A number in so many bytes, the lowest first. -/
def littleEndian (width : Nat) (value : Nat) : List UInt8 :=
  (List.range width).map fun index => UInt8.ofNat (value >>> (index * 8))

@[simp] theorem length_littleEndian (width value : Nat) :
    (littleEndian width value).length = width := by simp [littleEndian]

theorem littleEndian_succ (width value : Nat) :
    littleEndian (width + 1) value = UInt8.ofNat value :: littleEndian width (value / 256) := by
  unfold littleEndian
  rw [List.range_succ_eq_map, List.map_cons, List.map_map, Nat.zero_mul, Nat.shiftRight_zero]
  congr 1
  apply List.map_congr_left
  intro index _
  rw [Function.comp_apply, Nat.succ_mul, Nat.add_comm, Nat.shiftRight_add,
    Nat.shiftRight_eq_div_pow value 8]

/-- The bytes of a number that fits determine it. -/
theorem littleEndian_inj {width : Nat} : ∀ {a b : Nat}, a < 256 ^ width → b < 256 ^ width →
    littleEndian width a = littleEndian width b → a = b := by
  induction width with
  | zero =>
    intro a b smallA smallB _
    rw [Nat.pow_zero] at smallA smallB
    omega
  | succ width ih =>
    intro a b smallA smallB same
    rw [littleEndian_succ, littleEndian_succ, List.cons.injEq] at same
    rw [Nat.pow_succ] at smallA smallB
    have low : a % 256 = b % 256 := by
      have bytes := congrArg UInt8.toNat same.1
      rwa [UInt8.toNat_ofNat', UInt8.toNat_ofNat'] at bytes
    have high := ih (Nat.div_lt_of_lt_mul (by omega)) (Nat.div_lt_of_lt_mul (by omega)) same.2
    omega

theorem decodes_littleEndian (width : Nat) :
    Decodes (littleEndian width) (fun value => value < 256 ^ width) :=
  .of_length (fun _ => length_littleEndian width _)
    (fun _ _ smallA smallB same => littleEndian_inj smallA smallB same)

/-! ## One different letter -/

/-- Two words of one length that differ in exactly one place. -/
def DifferInOne (s t : List β) : Prop :=
  ∃ before after a b, a ≠ b ∧ s = before ++ a :: after ∧ t = before ++ b :: after

section Hash

variable {step : σ → β → σ}

theorem foldl_injective (injective : ∀ b, Function.Injective (step · b)) (word : List β) :
    Function.Injective (fun state => word.foldl step state) := by
  induction word with
  | nil => exact fun _ _ same => same
  | cons b word ih =>
    intro state state' same
    exact injective b (ih same)

/-- A hash whose steps lose nothing separates words that differ in one place. -/
theorem foldl_ne_of_differInOne (injective : ∀ b, Function.Injective (step · b))
    (separates : ∀ state, Function.Injective (step state)) {s t : List β}
    (differ : DifferInOne s t) (state : σ) : s.foldl step state ≠ t.foldl step state := by
  obtain ⟨before, after, a, b, different, rfl, rfl⟩ := differ
  intro same
  simp only [List.foldl_append, List.foldl_cons] at same
  exact different (separates _ (foldl_injective injective after same))

end Hash

/-- One step of a multiplicative byte hash. -/
def mixByte (factor hash : UInt64) (byte : UInt8) : UInt64 := (hash ^^^ byte.toUInt64) * factor

section Mix

variable {factor inverse : UInt64}

theorem mul_right_injective_of_inverse (unit : factor * inverse = 1) :
    Function.Injective (· * factor) := by
  intro a b same
  have undone : a * factor * inverse = b * factor * inverse := congrArg (· * inverse) same
  rwa [UInt64.mul_assoc, UInt64.mul_assoc, unit, UInt64.mul_one, UInt64.mul_one] at undone

theorem mixByte_injective (unit : factor * inverse = 1) (byte : UInt8) :
    Function.Injective (mixByte factor · byte) := by
  intro a b same
  exact (UInt64.xor_left_inj _).mp (mul_right_injective_of_inverse unit same)

theorem mixByte_separates (unit : factor * inverse = 1) (hash : UInt64) :
    Function.Injective (mixByte factor hash) := by
  intro a b same
  exact UInt8.toUInt64_inj.mp
    ((UInt64.xor_right_inj _).mp (mul_right_injective_of_inverse unit same))

/-- With a factor that has an inverse, every step is a bijection of the states. -/
theorem mixByte_bijective (unit : factor * inverse = 1) (byte : UInt8) :
    Function.Bijective (mixByte factor · byte) := by
  refine ⟨mixByte_injective unit byte, ?_⟩
  intro target
  refine ⟨target * inverse ^^^ byte.toUInt64, ?_⟩
  have unit' : inverse * factor = 1 := (UInt64.mul_comm _ _).trans unit
  simp only [mixByte, UInt64.xor_assoc, UInt64.xor_self, UInt64.xor_zero, UInt64.mul_assoc, unit',
    UInt64.mul_one]

end Mix

end NexusLab.Foundation
