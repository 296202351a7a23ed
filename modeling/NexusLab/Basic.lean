import Mathlib.Order.Basic
import Mathlib.Order.Lattice
import Mathlib.Order.Lattice.Nat

/-! # Words, identifiers and exceptions

The vocabulary every component shares.  Quantities of the source's 32- and 64-bit unsigned types
are natural numbers; an operation that the source leaves unchecked is written with the wrapping
functions of `U32` and `U64`, and a checked one with the source's own check.
-/

namespace NexusLab

/-! ## Machine words -/

/-- `std::numeric_limits<std::uint64_t>::max()`, also the range of `std::size_t`. -/
def maxU64 : Nat := 2 ^ 64 - 1

/-- `std::numeric_limits<std::uint32_t>::max()`. -/
def maxU32 : Nat := 2 ^ 32 - 1

namespace U32

def add (a b : Nat) : Nat := (a + b) % 2 ^ 32

def sub (a b : Nat) : Nat := (a + 2 ^ 32 - b) % 2 ^ 32

theorem add_eq {a b : Nat} (fits : a + b < 2 ^ 32) : add a b = a + b := Nat.mod_eq_of_lt fits

theorem sub_eq {a b : Nat} (le : b ≤ a) (fits : a < 2 ^ 32) : sub a b = a - b := by
  unfold sub
  omega

end U32

namespace U64

def add (a b : Nat) : Nat := (a + b) % 2 ^ 64

def sub (a b : Nat) : Nat := (a + 2 ^ 64 - b) % 2 ^ 64

def mul (a b : Nat) : Nat := (a * b) % 2 ^ 64

theorem add_eq {a b : Nat} (fits : a + b < 2 ^ 64) : add a b = a + b := Nat.mod_eq_of_lt fits

theorem sub_eq {a b : Nat} (le : b ≤ a) (fits : a < 2 ^ 64) : sub a b = a - b := by
  unfold sub
  omega

theorem mul_eq {a b : Nat} (fits : a * b < 2 ^ 64) : mul a b = a * b := Nat.mod_eq_of_lt fits

end U64

/-! ## Exceptions -/

/-- The standard exception classes the source throws.  `undefinedBehavior` is none of them: it marks
what the source leaves to its callers, such as following a null pointer. -/
inductive ErrorKind where
  | invalidArgument
  | logicError
  | overflowError
  | lengthError
  | outOfRange
  | runtimeError
  | undefinedBehavior
deriving DecidableEq

/-- Where a throw comes from.  The program cannot see it; it lets statements set apart the throws
of the telemetry session. -/
inductive ErrorOrigin where
  | program
  | telemetry
deriving DecidableEq

structure Error where
  kind : ErrorKind
  what : String
  origin : ErrorOrigin := .program
deriving DecidableEq

namespace Error

def invalidArgument (what : String) : Error := { kind := .invalidArgument, what }
def logicError (what : String) : Error := { kind := .logicError, what }
def overflowError (what : String) : Error := { kind := .overflowError, what }
def lengthError (what : String) : Error := { kind := .lengthError, what }
def outOfRange (what : String) : Error := { kind := .outOfRange, what }
def runtimeError (what : String) : Error := { kind := .runtimeError, what }
def undefinedBehavior (what : String) : Error := { kind := .undefinedBehavior, what }

end Error

/-- A computation over the state `σ` that may throw. -/
abbrev Action (σ α : Type) := EStateM Error σ α

/-! ## Texts -/

/-- The bytes of a text.  A `std::string` is a sequence of bytes, so it is a string that has only
characters below 256. -/
def textBytes (text : String) : List UInt8 := text.toList.map fun c => UInt8.ofNat c.toNat

def IsText (text : String) : Prop := ∀ c ∈ text.toList, c.toNat < 256

instance (text : String) : Decidable (IsText text) :=
  List.decidableBAll (fun c : Char => c.toNat < 256) text.toList

theorem byteChar_inj {c d : Char} (smallC : c.toNat < 256) (smallD : d.toNat < 256)
    (same : UInt8.ofNat c.toNat = UInt8.ofNat d.toNat) : c = d := by
  have bytes := congrArg UInt8.toNat same
  rw [UInt8.toNat_ofNat_of_lt' smallC, UInt8.toNat_ofNat_of_lt' smallD] at bytes
  exact Char.toNat_inj.mp bytes

theorem byteChars_inj : ∀ {as bs : List Char}, (∀ c ∈ as, c.toNat < 256) →
    (∀ c ∈ bs, c.toNat < 256) →
    as.map (fun c => UInt8.ofNat c.toNat) = bs.map (fun c => UInt8.ofNat c.toNat) → as = bs
  | [], [], _, _, _ => rfl
  | [], _ :: _, _, _, same => by cases same
  | _ :: _, [], _, _, same => by cases same
  | a :: as, b :: bs, smallAs, smallBs, same => by
    rw [List.map_cons, List.map_cons, List.cons.injEq] at same
    have heads := byteChar_inj (smallAs a (List.mem_cons_self ..))
      (smallBs b (List.mem_cons_self ..)) same.1
    have tails := byteChars_inj (fun c member => smallAs c (List.mem_cons_of_mem _ member))
      (fun c member => smallBs c (List.mem_cons_of_mem _ member)) same.2
    rw [heads, tails]

theorem textBytes_inj {a b : String} (isA : IsText a) (isB : IsText b)
    (same : textBytes a = textBytes b) : a = b :=
  String.toList_inj.mp (byteChars_inj isA isB same)

/-! ## Identifiers -/

/-- An identifier of one kind of entity, as the source's `StrongId<Tag>` and
`StrongUnsigned<Tag>`. -/
structure StrongId (Tag : Type) where
  value : Nat
deriving DecidableEq

namespace StrongId

variable {Tag : Type}

theorem value_injective : Function.Injective (@StrongId.value Tag) := by
  rintro ⟨a⟩ ⟨b⟩ rfl
  rfl

instance : LinearOrder (StrongId Tag) := LinearOrder.lift' StrongId.value value_injective

theorem lt_iff {a b : StrongId Tag} : a < b ↔ a.value < b.value := Iff.rfl

end StrongId

/-! ## Identifier sequences -/

/-- The three sequential generators of the source differ in the text of the exception only. -/
structure IdGenerator where
  nextValue : Nat := 0
  exhausted : Bool := false
deriving DecidableEq

namespace IdGenerator

/-- The next identifier.  The largest one is handed out too, after which the sequence is
exhausted. -/
def next (what : String) (g : IdGenerator) : Except Error (Nat × IdGenerator) :=
  if g.exhausted then .error (.overflowError what)
  else if g.nextValue = maxU64 then .ok (g.nextValue, { g with exhausted := true })
  else .ok (g.nextValue, { g with nextValue := g.nextValue + 1 })

/-- Whether so many more identifiers are left. -/
def canGenerate (g : IdGenerator) (count : Nat) : Bool :=
  count = 0 || (!g.exhausted && count - 1 ≤ maxU64 - g.nextValue)

/-- Skips every identifier up to the given one. -/
def advancePast (g : IdGenerator) (id : Nat) : IdGenerator :=
  if g.exhausted ∨ id < g.nextValue then g
  else if id = maxU64 then { g with exhausted := true }
  else { g with nextValue := id + 1 }

/-- The identifiers a generator has handed out or skipped. -/
def Issued (g : IdGenerator) (value : Nat) : Prop := value < g.nextValue ∨ g.exhausted = true

theorem next_eq_ok {what : String} {g g' : IdGenerator} {value : Nat}
    (ok : g.next what = .ok (value, g')) :
    value = g.nextValue ∧ ¬ g.Issued value ∧ g'.Issued value ∧
      ∀ earlier, g.Issued earlier → g'.Issued earlier := by
  unfold next at ok
  split at ok
  · cases ok
  · rename_i fresh
    have notIssued : ¬ g.Issued g.nextValue := by simp [Issued, fresh]
    split at ok
    · cases ok
      exact ⟨rfl, notIssued, .inr rfl, fun _ _ => .inr rfl⟩
    · cases ok
      refine ⟨rfl, notIssued, .inl (Nat.lt_succ_self _), fun earlier h => ?_⟩
      rcases h with h | h
      · exact .inl (Nat.lt_succ_of_lt h)
      · exact absurd h fresh

theorem issued_advancePast {g : IdGenerator} {id value : Nat} (issued : g.Issued value) :
    (g.advancePast id).Issued value := by
  unfold advancePast
  split
  · exact issued
  · rename_i ahead
    split
    · exact .inr rfl
    · rcases issued with lt | exhausted
      · exact .inl (by simp only; omega)
      · exact .inr exhausted

theorem issued_advancePast_self {g : IdGenerator} {id : Nat} : (g.advancePast id).Issued id := by
  unfold advancePast
  split
  · rename_i done
    rcases done with exhausted | lt
    · exact .inr exhausted
    · exact .inl lt
  · split
    · exact .inr rfl
    · exact .inl (Nat.lt_succ_self _)

/-- The given identifier is the next one, or there is none left. -/
def At (g : IdGenerator) (count : Nat) : Prop := g.exhausted = true ∨ g.nextValue = count

theorem next_at {what : String} {g g' : IdGenerator} {value count : Nat} (here : g.At count)
    (ok : g.next what = .ok (value, g')) : value = count ∧ g'.At (count + 1) := by
  unfold next at ok
  cases here with
  | inl exhausted => simp [exhausted] at ok
  | inr same =>
    split at ok
    · cases ok
    · split at ok
      · cases ok
        exact ⟨same, .inl rfl⟩
      · cases ok
        exact ⟨same, .inr (congrArg (· + 1) same)⟩

/-- A generator with identifiers left hands out the next one and keeps the rest. -/
theorem next_of_canGenerate {g : IdGenerator} {count : Nat} (what : String)
    (left : g.canGenerate (count + 1) = true) :
    ∃ g', g.next what = .ok (g.nextValue, g') ∧ g.exhausted = false ∧
      g'.canGenerate count = true ∧ (0 < count → g'.nextValue = g.nextValue + 1) ∧
      g'.advancePast g.nextValue = g' := by
  simp only [canGenerate, Nat.add_one_ne_zero, decide_false, Bool.false_or, Bool.and_eq_true,
    Bool.not_eq_true', Nat.add_sub_cancel, decide_eq_true_eq] at left
  obtain ⟨remaining, room⟩ := left
  unfold next
  rw [if_neg (by simp [remaining])]
  by_cases last : g.nextValue = maxU64
  · rw [if_pos last]
    refine ⟨_, rfl, remaining, ?_, ?_, ?_⟩
    · have none_left : count = 0 := by omega
      simp [canGenerate, none_left]
    · intro more
      omega
    · simp [advancePast]
  · rw [if_neg last]
    refine ⟨_, rfl, remaining, ?_, fun _ => rfl, ?_⟩
    · simp only [canGenerate, remaining, Bool.not_false, Bool.true_and, Bool.or_eq_true,
        decide_eq_true_eq]
      omega
    · simp [advancePast]

theorem exhausted_of_next {what : String} {g : IdGenerator} {e : Error}
    (thrown : g.next what = .error e) : g.exhausted = true := by
  unfold next at thrown
  split at thrown
  · assumption
  · split at thrown <;> cases thrown

theorem next_error {what : String} {g : IdGenerator} {e : Error} (thrown : g.next what = .error e) :
    e = .overflowError what := by
  unfold next at thrown
  split at thrown
  · cases thrown; rfl
  · split at thrown <;> cases thrown

end IdGenerator

end NexusLab
