/-
**JSON texts, and the scanners that pass over them.**

The grammar of JSON is stated on the characters of a text. A scanner walks a text with a flag for
strings, a flag for escapes and a state of its own, which brackets change. A scanner that a closing
bracket brings back to where its opening bracket found it passes over every value.

* `Valid`: the texts of values, of the items between brackets and of single items;
* `ObjectText`: an object with its members one by one;
* `Skims.valid`: the rule of scanners;
* `firstMember`: the member that a key names.
-/
import Mathlib.Data.List.Basic
import Mathlib.Tactic.Common

namespace TurboHybrid.Library.Json

abbrev Text := List Char

/-! ### Characters -/

def quote : Char := '\x22'

def backslash : Char := '\x5c'

def Blank (text : Text) : Prop := ∀ c ∈ text, c = ' ' ∨ c = '\t' ∨ c = '\n' ∨ c = '\r'

inductive Shape where
  | object
  | array
  deriving DecidableEq

def Shape.opening : Shape → Char
  | .object => '{'
  | .array => '['

def Shape.closing : Shape → Char
  | .object => '}'
  | .array => ']'

/-- A character that neither starts a string nor opens or closes a bracket. -/
def Plain (c : Char) : Prop := c ≠ quote ∧ ∀ shape : Shape, c ≠ shape.opening ∧ c ≠ shape.closing

/-! ### Strings -/

def escapes : List (Char × Char) :=
  [(quote, quote), (backslash, backslash), ('/', '/'), ('b', '\x08'), ('f', '\x0c'), ('n', '\n'),
    ('r', '\r'), ('t', '\t')]

def isHex (c : Char) : Bool :=
  c.isDigit || (decide ('a' ≤ c) && decide (c ≤ 'f')) || (decide ('A' ≤ c) && decide (c ≤ 'F'))

inductive StringItem where
  | plain (c : Char) (free : c ≠ quote ∧ c ≠ backslash ∧ ' ' ≤ c)
  | escape (letter content : Char) (known : (letter, content) ∈ escapes)
  | code (one two three four : Char) (hex : ∀ c ∈ [one, two, three, four], isHex c = true)

def StringItem.text : StringItem → Text
  | .plain c _ => [c]
  | .escape letter _ _ => [backslash, letter]
  | .code one two three four _ => [backslash, 'u', one, two, three, four]

/-- What an item stands for, where it is no unicode escape. -/
def StringItem.content : StringItem → Option Char
  | .plain c _ => some c
  | .escape _ content _ => some content
  | .code .. => none

def bodyText (body : List StringItem) : Text := body.flatMap StringItem.text

def stringText (body : List StringItem) : Text := quote :: (bodyText body ++ [quote])

/-- The content of a string without unicode escapes. -/
def decode (body : List StringItem) : Option Text := body.mapM StringItem.content

/-! ### Numbers and names -/

def Digits (text : Text) : Prop := text ≠ [] ∧ ∀ c ∈ text, c.isDigit = true

structure IsNumber (text : Text) : Prop where
  parts : ∃ sign int frac exp, text = sign ++ int ++ frac ++ exp ∧ (sign = [] ∨ sign = ['-']) ∧
    (Digits int ∧ (int.head? = some '0' → int.length = 1)) ∧
    (frac = [] ∨ ∃ digits, frac = '.' :: digits ∧ Digits digits) ∧
    (exp = [] ∨ ∃ letter mark digits, exp = letter :: (mark ++ digits) ∧
      (letter = 'e' ∨ letter = 'E') ∧ (mark = [] ∨ mark = ['+'] ∨ mark = ['-']) ∧ Digits digits)

inductive Scalar : Text → Prop
  | number {text : Text} (number : IsNumber text) : Scalar text
  | true : Scalar ['t', 'r', 'u', 'e']
  | false : Scalar ['f', 'a', 'l', 's', 'e']
  | null : Scalar ['n', 'u', 'l', 'l']

/-! ### Values -/

inductive Kind where
  | value
  | item (shape : Shape)
  | items (shape : Shape)

/-- **The grammar**: a value, an item of an object or an array, and items with commas between. -/
inductive Valid : Kind → Text → Prop
  | string (body : List StringItem) : Valid .value (stringText body)
  | scalar {text : Text} (scalar : Scalar text) : Valid .value text
  | empty (shape : Shape) {blank : Text} (isBlank : Blank blank) :
      Valid .value (shape.opening :: (blank ++ [shape.closing]))
  | nested {shape : Shape} {text : Text} (items : Valid (.items shape) text) :
      Valid .value (shape.opening :: (text ++ [shape.closing]))
  | element {before value after : Text} (blankBefore : Blank before) (valid : Valid .value value)
      (blankAfter : Blank after) : Valid (.item .array) (before ++ (value ++ after))
  | member {before between gap value after : Text} (key : List StringItem)
      (blankBefore : Blank before) (blankBetween : Blank between) (blankGap : Blank gap)
      (valid : Valid .value value) (blankAfter : Blank after) :
      Valid (.item .object)
        (before ++ (stringText key ++ (between ++ ':' :: (gap ++ (value ++ after)))))
  | one {shape : Shape} {text : Text} (item : Valid (.item shape) text) : Valid (.items shape) text
  | more {shape : Shape} {text rest : Text} (item : Valid (.item shape) text)
      (items : Valid (.items shape) rest) : Valid (.items shape) (text ++ ',' :: rest)

/-- A member of an object, with the white space around its parts. -/
structure Member where
  before : Text
  key : List StringItem
  between : Text
  gap : Text
  value : Text
  after : Text
  blankBefore : Blank before
  blankBetween : Blank between
  blankGap : Blank gap
  valid : Valid .value value
  blankAfter : Blank after

def Member.text (member : Member) : Text :=
  member.before ++ (stringText member.key ++ (member.between ++ ':' :: (member.gap ++
    (member.value ++ member.after))))

def laterText (members : List Member) : Text := members.flatMap fun member => ',' :: member.text

def membersText : List Member → Text
  | [] => []
  | member :: later => member.text ++ laterText later

structure ObjectText where
  leading : Text
  inner : Text
  members : List Member
  trailing : Text
  blankLeading : Blank leading
  blankInner : Blank inner
  blankTrailing : Blank trailing

def ObjectText.text (object : ObjectText) : Text :=
  object.leading ++ '{' :: (object.inner ++ (membersText object.members ++ '}' :: object.trailing))

/-- A text that is an object with white space around it. -/
def IsObject (text : Text) : Prop :=
  ∃ leading value trailing, text = leading ++ (value ++ trailing) ∧ Blank leading ∧
    Blank trailing ∧ Valid .value value ∧ value.head? = some '{'

/-- The first member whose key is written as the key given, and the members behind it. -/
def firstMember (key : Text) : List Member → Option (Member × List Member)
  | [] => none
  | member :: later =>
    if bodyText member.key = key then some (member, later) else firstMember key later

/-! ### Scanners -/

/-- The flags for strings and for escapes behind a character of a string. -/
def stringStep (c : Char) (escape : Bool) : Bool × Bool :=
  if escape then (true, false)
  else if c = backslash then (true, true)
  else if c = quote then (false, false)
  else (true, false)

/-- A scanner that passes over values in its deep states. -/
structure Skims {State Result : Type} (scan : State → Bool → Bool → Text → Result)
    (deep : State → Prop) (push : Shape → State → State) : Prop where
  inside : ∀ state escape c rest, scan state true escape (c :: rest) =
    scan state (stringStep c escape).1 (stringStep c escape).2 rest
  quoted : ∀ {state} rest, deep state →
    scan state false false (quote :: rest) = scan state true false rest
  plain : ∀ state {c} rest, Plain c →
    scan state false false (c :: rest) = scan state false false rest
  opened : ∀ state shape rest, scan state false false (shape.opening :: rest) =
    scan (push shape state) false false rest
  closed : ∀ {state} shape rest, deep state →
    scan (push shape state) false false (shape.closing :: rest) = scan state false false rest
  stays : ∀ {state} shape, deep state → deep (push shape state)

theorem isHex_free {c : Char} (hex : isHex c = true) : c ≠ quote ∧ c ≠ backslash :=
  ⟨fun equal => absurd (equal ▸ hex) (by decide), fun equal => absurd (equal ▸ hex) (by decide)⟩

theorem stringStep_free {c : Char} (free : c ≠ quote ∧ c ≠ backslash) :
    stringStep c false = (true, false) := by
  rw [stringStep, if_neg Bool.false_ne_true, if_neg free.2, if_neg free.1]

theorem plain_of_blank {text : Text} (blank : Blank text) : ∀ c ∈ text, Plain c := by
  intro c member
  rcases blank c member with rfl | rfl | rfl | rfl <;>
    exact ⟨by decide, fun shape => by cases shape <;> decide⟩

theorem plain_of_numeric {c : Char}
    (numeric : c.isDigit = true ∨ c = '-' ∨ c = '+' ∨ c = '.' ∨ c = 'e' ∨ c = 'E') : Plain c := by
  refine ⟨?_, fun shape => ⟨?_, ?_⟩⟩ <;> rintro rfl
  · exact absurd numeric (by decide)
  · cases shape <;> exact absurd numeric (by decide)
  · cases shape <;> exact absurd numeric (by decide)

theorem IsNumber.numeric {text : Text} (number : IsNumber text) : ∀ c ∈ text,
    c.isDigit = true ∨ c = '-' ∨ c = '+' ∨ c = '.' ∨ c = 'e' ∨ c = 'E' := by
  obtain ⟨sign, int, frac, exp, rfl, sign_, ⟨int_, -⟩, frac_, exp_⟩ := number.parts
  intro c member
  simp only [List.mem_append] at member
  rcases member with ((inSign | inInt) | inFrac) | inExp
  · rcases sign_ with rfl | rfl
    · exact absurd inSign List.not_mem_nil
    · exact .inr (.inl (List.mem_singleton.mp inSign))
  · exact .inl (int_.2 c inInt)
  · rcases frac_ with rfl | ⟨digits, rfl, digits_⟩
    · exact absurd inFrac List.not_mem_nil
    · rcases List.mem_cons.mp inFrac with rfl | inDigits
      · simp
      · exact .inl (digits_.2 c inDigits)
  · rcases exp_ with rfl | ⟨letter, mark, digits, rfl, letter_, mark_, digits_⟩
    · exact absurd inExp List.not_mem_nil
    · rcases List.mem_cons.mp inExp with rfl | inRest
      · rcases letter_ with rfl | rfl <;> simp
      · rcases List.mem_append.mp inRest with inMark | inDigits
        · rcases mark_ with rfl | rfl | rfl <;> simp_all
        · exact .inl (digits_.2 c inDigits)

theorem Scalar.plain {text : Text} (scalar : Scalar text) : ∀ c ∈ text, Plain c := by
  cases scalar with
  | number number => exact fun c member => plain_of_numeric (number.numeric c member)
  | _ =>
    intro c member
    simp only [List.mem_cons, List.not_mem_nil, or_false] at member
    rcases member with rfl | rfl | rfl | rfl | rfl <;>
      exact ⟨by decide, fun shape => by cases shape <;> decide⟩

/-! ### Objects -/

theorem members_of_valid {kind : Kind} {text : Text} (valid : Valid kind text) :
    (kind = .item .object → ∃ member : Member, member.text = text) ∧
      (kind = .items .object → ∃ (member : Member) (later : List Member),
        membersText (member :: later) = text) := by
  induction valid with
  | member key before between gap valid after =>
    exact ⟨fun _ => ⟨⟨_, key, _, _, _, _, before, between, gap, valid, after⟩, rfl⟩,
      fun same => (by cases same)⟩
  | @one shape text _ ih =>
    refine ⟨fun same => (by cases same), fun same => ?_⟩
    obtain rfl := Kind.items.inj same
    obtain ⟨member, rfl⟩ := ih.1 rfl
    exact ⟨member, [], List.append_nil _⟩
  | @more shape text rest _ _ first later =>
    refine ⟨fun same => (by cases same), fun same => ?_⟩
    obtain rfl := Kind.items.inj same
    obtain ⟨member, rfl⟩ := first.1 rfl
    obtain ⟨next, members, rfl⟩ := later.2 rfl
    exact ⟨member, next :: members, rfl⟩
  | _ => exact ⟨fun same => (by cases same), fun same => (by cases same)⟩

/-- **Every text of an object is one with members.** -/
theorem exists_object {text : Text} (isObject : IsObject text) :
    ∃ object : ObjectText, object.text = text := by
  obtain ⟨leading, value, trailing, rfl, blankLeading, blankTrailing, valid, head⟩ := isObject
  cases valid with
  | string body => exact absurd (Option.some.inj head) (by decide)
  | scalar scalar =>
    exact absurd rfl ((scalar.plain _ (List.mem_of_mem_head? head)).2 .object).1
  | @empty shape blank isBlank =>
    cases shape with
    | array => exact absurd (Option.some.inj head) (by decide)
    | object =>
      refine ⟨⟨leading, blank, [], trailing, blankLeading, isBlank, blankTrailing⟩, ?_⟩
      simp only [ObjectText.text, membersText, Shape.opening, Shape.closing, List.cons_append,
        List.append_assoc, List.nil_append]
  | @nested shape text items =>
    cases shape with
    | array => exact absurd (Option.some.inj head) (by decide)
    | object =>
      obtain ⟨member, later, rfl⟩ := (members_of_valid items).2 rfl
      refine ⟨⟨leading, [], member :: later, trailing, blankLeading,
        fun _ within => absurd within List.not_mem_nil, blankTrailing⟩, ?_⟩
      simp only [ObjectText.text, Shape.opening, Shape.closing, List.cons_append,
        List.append_assoc, List.nil_append]

/-! ### The rule -/

namespace Skims

variable {State Result : Type} {scan : State → Bool → Bool → Text → Result} {deep : State → Prop}
  {push : Shape → State → State}

theorem plains (skims : Skims scan deep push) (state : State) {text : Text}
    (plain : ∀ c ∈ text, Plain c) (rest : Text) :
    scan state false false (text ++ rest) = scan state false false rest := by
  induction text with
  | nil => rfl
  | cons c text ih =>
    rw [List.cons_append, skims.plain state _ (plain c List.mem_cons_self),
      ih fun d member => plain d (List.mem_cons_of_mem _ member)]

theorem item (skims : Skims scan deep push) (state : State) (item : StringItem) (rest : Text) :
    scan state true false (item.text ++ rest) = scan state true false rest := by
  cases item with
  | plain c free =>
    rw [StringItem.text, List.singleton_append, skims.inside,
      stringStep_free ⟨free.1, free.2.1⟩]
  | escape letter content known =>
    have start : stringStep backslash false = (true, true) := rfl
    rw [StringItem.text, List.cons_append, List.singleton_append, skims.inside, start,
      skims.inside]
    rfl
  | code one two three four hex =>
    simp only [List.mem_cons, List.not_mem_nil, or_false, forall_eq_or_imp, forall_eq] at hex
    obtain ⟨one_, two_, three_, four_⟩ := hex
    have letter : stringStep 'u' true = (true, false) := rfl
    have start : stringStep backslash false = (true, true) := rfl
    simp only [StringItem.text, List.cons_append, List.nil_append, skims.inside, start, letter,
      stringStep_free (isHex_free one_), stringStep_free (isHex_free two_),
      stringStep_free (isHex_free three_), stringStep_free (isHex_free four_)]

theorem body (skims : Skims scan deep push) (state : State) (body : List StringItem)
    (rest : Text) :
    scan state true false (bodyText body ++ quote :: rest) = scan state false false rest := by
  induction body with
  | nil => exact skims.inside state false quote rest
  | cons item body ih =>
    rw [bodyText, List.flatMap_cons, List.append_assoc, skims.item, ← bodyText, ih]

theorem string (skims : Skims scan deep push) {state : State} (isDeep : deep state)
    (body : List StringItem) (rest : Text) :
    scan state false false (stringText body ++ rest) = scan state false false rest := by
  rw [stringText, List.cons_append, skims.quoted _ isDeep, List.append_assoc,
    List.singleton_append, skims.body]

/-- **The rule of scanners**: a value, and what stands between brackets, is passed over. -/
theorem valid (skims : Skims scan deep push) {kind : Kind} {text : Text} (valid : Valid kind text)
    {state : State} (isDeep : deep state) (rest : Text) :
    scan state false false (text ++ rest) = scan state false false rest := by
  induction valid generalizing state rest with
  | string body => exact skims.string isDeep body rest
  | scalar scalar => exact skims.plains state scalar.plain rest
  | empty shape blank =>
    rw [List.cons_append, skims.opened _ shape, List.append_assoc,
      skims.plains _ (plain_of_blank blank), List.singleton_append, skims.closed shape _ isDeep]
  | @nested shape text items ih =>
    rw [List.cons_append, skims.opened _ shape, List.append_assoc,
      ih (skims.stays shape isDeep), List.singleton_append, skims.closed shape _ isDeep]
  | element blankBefore _ blankAfter ih =>
    rw [List.append_assoc, skims.plains _ (plain_of_blank blankBefore), List.append_assoc,
      ih isDeep, skims.plains _ (plain_of_blank blankAfter)]
  | member key blankBefore blankBetween blankGap _ blankAfter ih =>
    have colon : Plain ':' := ⟨by decide, fun shape => by cases shape <;> decide⟩
    rw [List.append_assoc, skims.plains _ (plain_of_blank blankBefore), List.append_assoc,
      skims.string isDeep, List.append_assoc, skims.plains _ (plain_of_blank blankBetween),
      List.cons_append, skims.plain _ _ colon, List.append_assoc,
      skims.plains _ (plain_of_blank blankGap), List.append_assoc, ih isDeep,
      skims.plains _ (plain_of_blank blankAfter)]
  | one _ ih => exact ih isDeep rest
  | more _ _ first later =>
    have comma : Plain ',' := ⟨by decide, fun shape => by cases shape <;> decide⟩
    rw [List.append_assoc, first isDeep, List.cons_append, skims.plain _ _ comma, later isDeep]

end Skims

end TurboHybrid.Library.Json
