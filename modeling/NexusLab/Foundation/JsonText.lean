import NexusLab.Foundation.Encoding

/-! # JSON text

JSON values and the compact text of one.  A value's text can be read off the front of any word in
which no digit follows it, so that different values have different texts, and a text never contains
a line break.

A character stands for one byte of the text: the strings of the source are byte strings, and bytes
from 0x80 on are copied as they are.

* `Json.render`: the text of a value.
* `reads_render`: the value is determined by its text, and so is what follows.
* `newline_notMem_render`: the text stays on one line.
-/

namespace NexusLab.Foundation

variable {α β : Type}

/-! ## Numbers -/

/-- The text does not go on with a digit. -/
def Delimited (s : List Char) : Prop := ∀ c ∈ s.head?, c.isDigit = false

theorem delimited_cons {c : Char} {s : List Char} (notDigit : c.isDigit = false) :
    Delimited (c :: s) := by
  intro d member
  rw [List.head?_cons, Option.mem_some_iff] at member
  exact member ▸ notDigit

/-- In front of anything but a digit, a value can be read off the text. -/
def Reads (encode : α → List Char) : Prop :=
  ∀ a b s t, Delimited s → Delimited t → encode a ++ s = encode b ++ t → a = b ∧ s = t

/-- A number in decimal digits. -/
def decimal (value : Nat) : List Char := Nat.toDigits 10 value

theorem decimal_digits (value : Nat) : ∀ c ∈ decimal value, c.isDigit = true :=
  fun _ member => Nat.isDigit_of_mem_toDigits (by decide) (by decide) member

theorem decimal_injective : Function.Injective decimal := by
  intro a b same
  rw [← @Nat.ofDigitChars_ten_toDigits a, ← @Nat.ofDigitChars_ten_toDigits b]
  exact congrArg (Nat.ofDigitChars 10 · 0) same

/-- Digits end where something else begins. -/
theorem takeWhile_digits {digits s : List Char} (all : ∀ c ∈ digits, c.isDigit = true)
    (delimited : Delimited s) : (digits ++ s).takeWhile Char.isDigit = digits := by
  rw [List.takeWhile_append_of_pos all]
  cases s with
  | nil => simp
  | cons c t =>
    have notDigit : c.isDigit = false := delimited c rfl
    simp [notDigit]

theorem reads_decimal : Reads decimal := by
  intro a b s t delimitedS delimitedT same
  have digits := congrArg (List.takeWhile Char.isDigit) same
  rw [takeWhile_digits (decimal_digits a) delimitedS,
    takeWhile_digits (decimal_digits b) delimitedT] at digits
  rw [digits] at same
  exact ⟨decimal_injective digits, List.append_cancel_left same⟩

/-! ## Strings -/

/-- A hexadecimal digit. -/
def hexDigit (value : Nat) : Char := "0123456789abcdef".toList.getD value '0'

/-- What stands for a character between quotes. -/
def escape (c : Char) : List Char :=
  if c = '"' then ['\\', '"']
  else if c = '\\' then ['\\', '\\']
  else if c = '\x08' then ['\\', 'b']
  else if c = '\x0c' then ['\\', 'f']
  else if c = '\n' then ['\\', 'n']
  else if c = '\r' then ['\\', 'r']
  else if c = '\t' then ['\\', 't']
  else if c.toNat < 32 then ['\\', 'u', '0', '0', hexDigit (c.toNat / 16), hexDigit (c.toNat % 16)]
  else [c]

/-- A string between quotes. -/
def quoted (text : String) : List Char := '"' :: (text.toList.flatMap escape ++ ['"'])

/-- The characters that do not stand for themselves. -/
def Escaped (c : Char) : Prop := c = '"' ∨ c = '\\' ∨ c.toNat < 32

instance (c : Char) : Decidable (Escaped c) :=
  inferInstanceAs (Decidable (c = '"' ∨ c = '\\' ∨ c.toNat < 32))

theorem escape_of_not_escaped {c : Char} (plain : ¬ Escaped c) : escape c = [c] := by
  simp only [Escaped, not_or] at plain
  obtain ⟨notQuote, notBackslash, printable⟩ := plain
  have differs : ∀ d : Char, d.toNat < 32 → c ≠ d := fun d small same => printable (same ▸ small)
  unfold escape
  rw [if_neg notQuote, if_neg notBackslash, if_neg (differs _ (by decide)),
    if_neg (differs _ (by decide)), if_neg (differs _ (by decide)), if_neg (differs _ (by decide)),
    if_neg (differs _ (by decide)), if_neg printable]

/-- Nothing in the text is escaped. -/
def isPlain (text : String) : Bool := text.toList.all fun c => !decide (Escaped c)

theorem quoted_of_plain {text : String} (plain : isPlain text = true) :
    quoted text = '"' :: (text.toList ++ ['"']) := by
  have unchanged : text.toList.flatMap escape = text.toList.flatMap fun c => [c] :=
    List.flatMap_congr fun c member =>
      escape_of_not_escaped (by simpa using List.all_eq_true.mp plain c member)
  rw [quoted, unchanged, List.flatMap_singleton']

/-- The escaped characters, all of them. -/
def escapedCharacters : List Char := '"' :: '\\' :: (List.range 32).map Char.ofNat

theorem mem_escapedCharacters {c : Char} (escaped : Escaped c) : c ∈ escapedCharacters := by
  rcases escaped with rfl | rfl | small
  · decide
  · decide
  · refine List.mem_cons_of_mem _ (List.mem_cons_of_mem _ (List.mem_map.mpr ?_))
    exact ⟨c.toNat, List.mem_range.mpr small, Char.ofNat_toNat c⟩

theorem escape_of_mem : ∀ c ∈ escapedCharacters,
    (escape c).head? = some '\\' ∧ '\n' ∉ escape c ∧
      ∀ d ∈ escapedCharacters, escape c <+: escape d → c = d := by
  have tested : (escapedCharacters.all fun c => decide ((escape c).head? = some '\\') &&
      decide ('\n' ∉ escape c) &&
      escapedCharacters.all fun d => decide (escape c <+: escape d → c = d)) = true := by
    decide +kernel
  simp only [List.all_eq_true, Bool.and_eq_true, decide_eq_true_eq] at tested
  exact fun c member => ⟨(tested c member).1.1, (tested c member).1.2, (tested c member).2⟩

theorem decodes_escape : Decodes escape (fun _ => True) := by
  refine .of_prefixFree fun a b _ _ front => ?_
  by_cases escapedA : Escaped a
  · obtain ⟨head, _, free⟩ := escape_of_mem a (mem_escapedCharacters escapedA)
    by_cases escapedB : Escaped b
    · exact free b (mem_escapedCharacters escapedB) front
    · -- a plain character is no backslash
      rw [escape_of_not_escaped escapedB] at front
      have begins := (List.singleton_prefix_iff_head?_eq_some.mpr head).trans front
      rw [List.singleton_prefix_iff_head?_eq_some] at begins
      exact absurd (.inr (.inl (Option.some.inj begins))) escapedB
  · rw [escape_of_not_escaped escapedA, List.singleton_prefix_iff_head?_eq_some] at front
    by_cases escapedB : Escaped b
    · rw [(escape_of_mem b (mem_escapedCharacters escapedB)).1] at front
      exact absurd (.inr (.inl (Option.some.inj front).symm)) escapedA
    · rw [escape_of_not_escaped escapedB] at front
      exact (Option.some.inj front).symm

theorem newline_notMem_escape (c : Char) : '\n' ∉ escape c := by
  by_cases escaped : Escaped c
  · exact (escape_of_mem c (mem_escapedCharacters escaped)).2.1
  · rw [escape_of_not_escaped escaped, List.mem_singleton]
    rintro rfl
    exact escaped (.inr (.inr (by decide)))

theorem length_escape_le (c : Char) : (escape c).length ≤ 6 := by
  unfold escape
  repeat' split
  all_goals simp

theorem length_quoted_le (text : String) : (quoted text).length ≤ 6 * text.length + 2 := by
  have inner : ∀ cs : List Char, (cs.flatMap escape).length ≤ 6 * cs.length := by
    intro cs
    induction cs with
    | nil => exact Nat.le_refl 0
    | cons c cs ih =>
      have head := length_escape_le c
      rw [List.flatMap_cons, List.length_append, List.length_cons]
      omega
  have bound := inner text.toList
  rw [String.length_toList] at bound
  simp only [quoted, List.length_cons, List.length_append, List.length_nil]
  omega

/-- No character is written as something that begins with a quote. -/
theorem escape_starts (c : Char) : ∃ d rest, escape c = d :: rest ∧ d ≠ '"' := by
  by_cases escaped : Escaped c
  · have head := (escape_of_mem c (mem_escapedCharacters escaped)).1
    obtain ⟨rest, shape⟩ := List.head?_eq_some_iff.mp head
    exact ⟨_, rest, shape, by decide⟩
  · exact ⟨c, [], escape_of_not_escaped escaped, fun isQuote => escaped (.inl isQuote)⟩

theorem decodes_quoted : Decodes quoted (fun _ => True) := by
  intro a b s t _ _ same
  have inner := (List.cons.inj same).2
  obtain ⟨texts, rest⟩ := decodes_escape.terminated (fun c _ => escape_starts c) a.toList b.toList
    s t (fun _ _ => trivial) (fun _ _ => trivial) inner
  exact ⟨String.toList_injective texts, rest⟩

theorem newline_notMem_quoted (text : String) : '\n' ∉ quoted text := by
  intro member
  simp only [quoted, List.mem_cons, List.mem_append, List.mem_flatMap] at member
  obtain isQuote | ⟨c, _, inside⟩ | isQuote := member
  · exact absurd isQuote (by decide)
  · exact newline_notMem_escape c inside
  · simp at isQuote

/-! ## Values -/

inductive Json where
  | null
  | bool (value : Bool)
  | number (value : Nat)
  | string (text : String)
  | array (items : List Json)
  | object (members : List (String × Json))

namespace Json

mutual

/-- The text of a value, without blanks. -/
def render : Json → List Char
  | null => ['n', 'u', 'l', 'l']
  | bool true => ['t', 'r', 'u', 'e']
  | bool false => ['f', 'a', 'l', 's', 'e']
  | number value => decimal value
  | string text => quoted text
  | array items => '[' :: (renderItems true items ++ [']'])
  | object members => '\x7b' :: (renderMembers true members ++ ['\x7d'])

/-- Values with commas between them, and one in front unless the first value is yet to come. -/
def renderItems (first : Bool) : List Json → List Char
  | [] => []
  | item :: rest => (if first then [] else [',']) ++ (render item ++ renderItems false rest)

def renderMembers (first : Bool) : List (String × Json) → List Char
  | [] => []
  | (name, value) :: rest => (if first then [] else [',']) ++
      (quoted name ++ ':' :: (render value ++ renderMembers false rest))

end

@[simp] theorem render_object (members : List (String × Json)) :
    render (object members) = '\x7b' :: (renderMembers true members ++ ['\x7d']) := rfl

@[simp] theorem renderMembers_nil (first : Bool) : renderMembers first [] = [] := rfl

@[simp] theorem renderMembers_true_cons (name : String) (value : Json)
    (rest : List (String × Json)) :
    renderMembers true ((name, value) :: rest) =
      quoted name ++ ':' :: (render value ++ renderMembers false rest) := rfl

@[simp] theorem renderMembers_false_cons (name : String) (value : Json)
    (rest : List (String × Json)) :
    renderMembers false ((name, value) :: rest) =
      ',' :: (quoted name ++ ':' :: (render value ++ renderMembers false rest)) := rfl

/-- The kind of value that begins with a character. -/
def kindAt (c : Char) : Nat :=
  if c = 'n' then 1 else if c = 't' ∨ c = 'f' then 2 else if c.isDigit then 3
  else if c = '"' then 4 else if c = '[' then 5 else if c = '\x7b' then 6 else 0

def kind : Json → Nat
  | null => 1
  | bool _ => 2
  | number _ => 3
  | string _ => 4
  | array _ => 5
  | object _ => 6

theorem kindAt_digit {c : Char} (digit : c.isDigit = true) : kindAt c = 3 := by
  have differs : ∀ d : Char, d.isDigit = false → c ≠ d := by
    rintro d notDigit rfl
    rw [digit] at notDigit
    cases notDigit
  unfold kindAt
  rw [if_neg (differs _ (by decide)), if_neg (not_or.mpr ⟨differs _ (by decide),
    differs _ (by decide)⟩), if_pos digit]

/-- The first character tells the kind of value. -/
theorem render_starts (value : Json) :
    ∃ c rest, value.render = c :: rest ∧ kindAt c = value.kind := by
  cases value with
  | null => exact ⟨_, _, rfl, rfl⟩
  | bool value => cases value <;> exact ⟨_, _, rfl, rfl⟩
  | number value =>
    have digits := decimal_digits value
    cases shape : decimal value with
    | nil => exact absurd shape Nat.toDigits_ne_nil
    | cons c rest =>
      rw [shape] at digits
      exact ⟨c, rest, by rw [render, shape], kindAt_digit (digits c List.mem_cons_self)⟩
  | string text => exact ⟨_, _, rfl, rfl⟩
  | array items => exact ⟨_, _, rfl, rfl⟩
  | object members => exact ⟨_, _, rfl, rfl⟩

theorem kind_eq_of_render {v w : Json} {s t : List Char}
    (same : v.render ++ s = w.render ++ t) : v.kind = w.kind := by
  obtain ⟨c, rest, shapeV, kindV⟩ := render_starts v
  obtain ⟨d, rest', shapeW, kindW⟩ := render_starts w
  rw [shapeV, shapeW] at same
  rw [← kindV, ← kindW, (List.cons.inj same).1]

/-- No value begins with a character that begins none. -/
theorem render_ne {v : Json} {c : Char} (none : kindAt c = 0) {s t : List Char} :
    v.render ++ s ≠ c :: t := by
  intro same
  obtain ⟨d, rest, shape, kindV⟩ := render_starts v
  rw [shape] at same
  rw [(List.cons.inj same).1, none] at kindV
  cases v <;> cases kindV

theorem delimited_renderItems (items : List Json) (s : List Char) :
    Delimited (renderItems false items ++ ']' :: s) := by
  cases items <;> exact delimited_cons (by decide)

theorem delimited_renderMembers (members : List (String × Json)) (s : List Char) :
    Delimited (renderMembers false members ++ '\x7d' :: s) := by
  cases members with
  | nil => exact delimited_cons (by decide)
  | cons member members => exact delimited_cons (by decide)

theorem renderItems_ne (first : Bool) (v : Json) (vs : List Json) {s t : List Char} :
    renderItems first (v :: vs) ++ s ≠ ']' :: t := by
  cases first with
  | true =>
    simp only [renderItems, if_true, List.nil_append, List.append_assoc]
    exact render_ne (by decide)
  | false => exact fun same => absurd (List.cons.inj same).1 (by decide)

theorem renderMembers_ne (first : Bool) (v : String × Json) (vs : List (String × Json))
    {s t : List Char} : renderMembers first (v :: vs) ++ s ≠ '\x7d' :: t := by
  cases first <;> exact fun same => absurd (List.cons.inj same).1 (by decide)

mutual

-- By recursion on the first value; the kinds agree, so the second has the same constructor.
theorem render_reads : ∀ (v w : Json) (s t : List Char), Delimited s → Delimited t →
    v.render ++ s = w.render ++ t → v = w ∧ s = t := by
  intro v w s t delimitedS delimitedT same
  have kinds := kind_eq_of_render same
  cases v with
  | null =>
    cases w with
    | null => exact ⟨rfl, List.append_cancel_left same⟩
    | _ => cases kinds
  | bool a =>
    cases w with
    | bool b =>
      cases a <;> cases b <;> first
        | exact ⟨rfl, List.append_cancel_left same⟩
        | exact absurd (List.cons.inj same).1 (by decide)
    | _ => cases kinds
  | number n =>
    cases w with
    | number m =>
      obtain ⟨numbers, rest⟩ := reads_decimal n m s t delimitedS delimitedT same
      exact ⟨by rw [numbers], rest⟩
    | _ => cases kinds
  | string text =>
    cases w with
    | string text' =>
      obtain ⟨texts, rest⟩ := decodes_quoted text text' s t trivial trivial same
      exact ⟨by rw [texts], rest⟩
    | _ => cases kinds
  | array items =>
    cases w with
    | array items' =>
      have inner : renderItems true items ++ ']' :: s = renderItems true items' ++ ']' :: t := by
        simpa [render] using same
      obtain ⟨parts, rest⟩ := renderItems_reads true items items' s t inner
      exact ⟨by rw [parts], rest⟩
    | _ => cases kinds
  | object members =>
    cases w with
    | object members' =>
      have inner : renderMembers true members ++ '\x7d' :: s =
          renderMembers true members' ++ '\x7d' :: t := by
        simpa [render] using same
      obtain ⟨parts, rest⟩ := renderMembers_reads true members members' s t inner
      exact ⟨by rw [parts], rest⟩
    | _ => cases kinds

theorem renderItems_reads : ∀ (first : Bool) (vs ws : List Json) (s t : List Char),
    renderItems first vs ++ ']' :: s = renderItems first ws ++ ']' :: t → vs = ws ∧ s = t := by
  intro first vs ws s t same
  cases vs with
  | nil =>
    cases ws with
    | nil => exact ⟨rfl, (List.cons.inj same).2⟩
    | cons w ws => exact absurd same.symm (renderItems_ne first w ws)
  | cons v vs =>
    cases ws with
    | nil => exact absurd same (renderItems_ne first v vs)
    | cons w ws =>
      have inner : v.render ++ (renderItems false vs ++ ']' :: s) =
          w.render ++ (renderItems false ws ++ ']' :: t) := by
        cases first <;> simpa [renderItems] using same
      obtain ⟨heads, rest⟩ := render_reads v w _ _ (delimited_renderItems vs s)
        (delimited_renderItems ws t) inner
      obtain ⟨tails, rest⟩ := renderItems_reads false vs ws s t rest
      exact ⟨by rw [heads, tails], rest⟩

theorem renderMembers_reads : ∀ (first : Bool) (vs ws : List (String × Json)) (s t : List Char),
    renderMembers first vs ++ '\x7d' :: s = renderMembers first ws ++ '\x7d' :: t →
      vs = ws ∧ s = t := by
  intro first vs ws s t same
  cases vs with
  | nil =>
    cases ws with
    | nil => exact ⟨rfl, (List.cons.inj same).2⟩
    | cons w ws => exact absurd same.symm (renderMembers_ne first w ws)
  | cons v vs =>
    cases ws with
    | nil => exact absurd same (renderMembers_ne first v vs)
    | cons w ws =>
      obtain ⟨name, value⟩ := v
      obtain ⟨name', value'⟩ := w
      have inner : quoted name ++ ':' :: (value.render ++ (renderMembers false vs ++ '\x7d' :: s)) =
          quoted name' ++ ':' :: (value'.render ++ (renderMembers false ws ++ '\x7d' :: t)) := by
        cases first <;> simpa [renderMembers] using same
      obtain ⟨names, rest⟩ := decodes_quoted name name' _ _ trivial trivial inner
      obtain ⟨values, rest⟩ := render_reads value value' _ _ (delimited_renderMembers vs s)
        (delimited_renderMembers ws t) (List.cons.inj rest).2
      obtain ⟨tails, rest⟩ := renderMembers_reads false vs ws s t rest
      exact ⟨by rw [names, values, tails], rest⟩

end

/-- A value can be read off its text. -/
theorem reads_render : Reads render := render_reads

mutual

theorem newline_notMem_render : ∀ value : Json, '\n' ∉ value.render := by
  intro value
  cases value with
  | null => decide
  | bool value => cases value <;> decide
  | number value =>
    intro member
    exact absurd (decimal_digits value _ member) (by decide)
  | string text => exact newline_notMem_quoted text
  | array items =>
    have inside := newline_notMem_renderItems true items
    simp [render, inside]
  | object members =>
    have inside := newline_notMem_renderMembers true members
    simp [render, inside]

theorem newline_notMem_renderItems : ∀ (first : Bool) (items : List Json),
    '\n' ∉ renderItems first items := by
  intro first items
  cases items with
  | nil => simp [renderItems]
  | cons item rest =>
    have head := newline_notMem_render item
    have tail := newline_notMem_renderItems false rest
    cases first <;> simp [renderItems, head, tail]

theorem newline_notMem_renderMembers : ∀ (first : Bool) (members : List (String × Json)),
    '\n' ∉ renderMembers first members := by
  intro first members
  cases members with
  | nil => simp [renderMembers]
  | cons member rest =>
    obtain ⟨name, value⟩ := member
    have key := newline_notMem_quoted name
    have head := newline_notMem_render value
    have tail := newline_notMem_renderMembers false rest
    cases first <;> simp [renderMembers, key, head, tail]

end

/-! ## Lists of values -/

/-- Texts with commas between them. -/
def separated : List (List Char) → List Char
  | [] => []
  | text :: rest => text ++ rest.flatMap fun next => ',' :: next

theorem renderItems_false (items : List Json) :
    renderItems false items = (items.map render).flatMap fun next => ',' :: next := by
  induction items with
  | nil => rfl
  | cons item items ih => simp [renderItems, ih]

theorem renderItems_true (items : List Json) :
    renderItems true items = separated (items.map render) := by
  cases items with
  | nil => rfl
  | cons item items => simp [renderItems, separated, renderItems_false]

/-! ## Optional members -/

/-- The members that are present. -/
def present (members : List (String × Option Json)) : List (String × Json) :=
  members.filterMap fun member => member.2.map fun value => (member.1, value)

theorem names_present (members : List (String × Option Json)) :
    ∀ member ∈ present members, member.1 ∈ members.map Prod.fst := by
  intro member isPresent
  obtain ⟨source, isMember, found⟩ := List.mem_filterMap.mp isPresent
  obtain ⟨value, _, rfl⟩ := Option.map_eq_some_iff.mp found
  exact List.mem_map_of_mem isMember

/-- Under names that differ, the present members determine which are absent. -/
theorem present_inj : ∀ {as bs : List (String × Option Json)}, (as.map Prod.fst).Nodup →
    as.map Prod.fst = bs.map Prod.fst → present as = present bs → as = bs
  | [], [], _, _, _ => rfl
  | [], _ :: _, _, names, _ => by cases names
  | _ :: _, [], _, names, _ => by cases names
  | (name, a) :: as, (name', b) :: bs, distinct, names, same => by
    rw [List.map_cons, List.map_cons, List.cons.injEq] at names
    obtain ⟨rfl, names⟩ := names
    rw [List.map_cons, List.nodup_cons] at distinct
    obtain ⟨fresh, distinct⟩ := distinct
    have absent : ∀ (members : List (String × Option Json)) {value : Json} {rest},
        members.map Prod.fst = as.map Prod.fst → present members ≠ (name, value) :: rest := by
      intro members value rest sameNames shape
      have isPresent := names_present members (name, value) (by simp [shape])
      exact fresh (sameNames ▸ isPresent)
    cases a with
    | none =>
      cases b with
      | none => rw [present_inj distinct names same]
      | some value => exact absurd same (absent as rfl)
    | some value =>
      cases b with
      | none => exact absurd same.symm (absent bs names.symm)
      | some value' =>
        have split := List.cons.inj same
        rw [present_inj distinct names split.2, (Prod.mk.inj split.1).2]

/-! ## Lines -/

/-- A value on a line of its own. -/
def line (value : Json) : List Char := value.render ++ ['\n']

theorem decodes_line : Decodes line (fun _ => True) := by
  intro v w s t _ _ same
  simp only [line, List.append_assoc, List.cons_append, List.nil_append] at same
  obtain ⟨values, rest⟩ := reads_render v w _ _ (delimited_cons (by decide))
    (delimited_cons (by decide)) same
  exact ⟨values, (List.cons.inj rest).2⟩

theorem line_ne_nil (value : Json) : value.line ≠ [] := by simp [line]

/-- Different lists of values give different texts, one value on each line. -/
theorem lines_injective {vs ws : List Json} (same : vs.flatMap line = ws.flatMap line) : vs = ws :=
  decodes_line.stream line_ne_nil vs ws (fun _ _ => trivial) (fun _ _ => trivial) same

end Json

end NexusLab.Foundation
