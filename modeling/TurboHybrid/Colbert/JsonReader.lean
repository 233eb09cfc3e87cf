/-
**The JSON reader of a model profile.**

The reader looks for a key with one walk over the text, which counts the brackets that are open, and
reads the value behind the key: an object or an array up to its closing bracket, a string, or an
array of integers. Pointers into the text are what is left of it.

* `reads_members`: what it finds in the text of an object;
* `stays_inside`: what it returns on any text lies inside of it;
* `jsonReader_right`: both;
* `jsonReader_cuts`: an integer beyond the range ends an array.
-/
import TurboHybrid.Library.Json

namespace TurboHybrid.Colbert

open Library.Json

/-! ### Keys and values -/

/-- `isspace`. -/
def isspace (c : Char) : Bool := c == ' ' || (decide (9 ≤ c.toNat) && decide (c.toNat ≤ 13))

def skipJsonWhitespace (text : Text) : Text := text.dropWhile isspace

def keyEqualsFrom : Text → Text → Option Text
  | [], _ => none
  | c :: rest, key =>
    if c = quote then if key = [] then some rest else none
    else if c = backslash then none
    else if key.head? = some c then keyEqualsFrom rest key.tail
    else none

def jsonKeyEquals (text key : Text) : Option Text :=
  if text.head? = some quote then keyEqualsFrom text.tail key else none

def valueAfter (after : Text) : Option Text :=
  let after := skipJsonWhitespace after
  if after.head? = some ':' then some (skipJsonWhitespace after.tail) else none

structure Depths where
  objectDepth : Int
  arrayDepth : Int

def findKeyFrom (key : Text) : Text → Depths → Bool → Bool → Option Text
  | [], _, _, _ => none
  | c :: rest, depths, inString, escape =>
    if inString then
      findKeyFrom key rest depths (stringStep c escape).1 (stringStep c escape).2
    else if c = '{' then
      findKeyFrom key rest { depths with objectDepth := depths.objectDepth + 1 } inString escape
    else if c = '}' then
      findKeyFrom key rest { depths with objectDepth := depths.objectDepth - 1 } inString escape
    else if c = '[' then
      findKeyFrom key rest { depths with arrayDepth := depths.arrayDepth + 1 } inString escape
    else if c = ']' then
      findKeyFrom key rest { depths with arrayDepth := depths.arrayDepth - 1 } inString escape
    else if c ≠ quote then findKeyFrom key rest depths inString escape
    else if depths.objectDepth ≠ 1 ∨ depths.arrayDepth ≠ 0 then
      findKeyFrom key rest depths true escape
    else ((jsonKeyEquals (c :: rest) key).bind valueAfter).or
      (findKeyFrom key rest depths true escape)

/-- `PgColbertJsonFindKey`. -/
def jsonFindKey (json key : Text) : Option Text := findKeyFrom key json ⟨0, 0⟩ false false

/-! ### Slices -/

def sliceFrom (openChar closeChar : Char) : Text → Int → Bool → Bool → Option Text
  | [], _, _, _ => none
  | c :: rest, depth, inString, escape =>
    if inString then
      sliceFrom openChar closeChar rest depth (stringStep c escape).1 (stringStep c escape).2
    else if c = quote then sliceFrom openChar closeChar rest depth true escape
    else if c = openChar then sliceFrom openChar closeChar rest (depth + 1) inString escape
    else if c = closeChar then
      if depth - 1 = 0 then some rest
      else sliceFrom openChar closeChar rest (depth - 1) inString escape
    else sliceFrom openChar closeChar rest depth inString escape

/-- `PgColbertJsonSliceBalanced`: the text up to the end of the slice. -/
def jsonSliceBalanced (start : Text) (openChar closeChar : Char) : Option Text :=
  if start.head? = some openChar then
    (sliceFrom openChar closeChar start 0 false false).map fun rest =>
      start.take (start.length - rest.length)
  else none

/-- `PgColbertJsonObjectForKey` and `PgColbertJsonArrayForKey`. -/
def jsonSliceForKey (shape : Shape) (json key : Text) : Option Text :=
  (jsonFindKey json key).bind fun value =>
    jsonSliceBalanced (skipJsonWhitespace value) shape.opening shape.closing

def jsonObjectForKey : Text → Text → Option Text := jsonSliceForKey .object

def jsonArrayForKey : Text → Text → Option Text := jsonSliceForKey .array

/-! ### Strings and integers -/

def unescape (c : Char) : Option Char :=
  if c = quote ∨ c = backslash ∨ c = '/' then some c
  else if c = 'b' then some '\x08'
  else if c = 'f' then some '\x0c'
  else if c = 'n' then some '\n'
  else if c = 'r' then some '\r'
  else if c = 't' then some '\t'
  else none

/-- `if (out < outEnd) *out++ = c`. -/
def put (room : Nat) (out : Text) (c : Char) : Text :=
  if out.length < room then out ++ [c] else out

/-- The loop over a string. The flag is set behind a backslash. -/
def readStringFrom (room : Nat) : Text → Bool → Text → Option Text
  | [], _, _ => none
  | c :: rest, true, out =>
    (unescape c).bind fun content => readStringFrom room rest false (put room out content)
  | c :: rest, false, out =>
    if c = quote then some out
    else if c = backslash then readStringFrom room rest true out
    else readStringFrom room rest false (put room out c)

/-- `PgColbertJsonReadStringValue`: the content up to the terminating zero. -/
def jsonReadStringValue (value : Text) (destSize : Nat) : Option Text :=
  if destSize = 0 then none
  else
    let value := skipJsonWhitespace value
    if value.head? = some quote then readStringFrom (destSize - 1) value.tail false [] else none

def jsonStringField (json key : Text) (destSize : Nat) : Option Text :=
  (jsonFindKey json key).bind fun value => jsonReadStringValue value destSize

def intMax : Int := 2147483647

def digitsValue (digits : Text) : Nat := digits.foldl (fun value c => 10 * value + (c.toNat - 48)) 0

def takeDigits (text : Text) : Option (Nat × Text) :=
  if text.takeWhile Char.isDigit = [] then none
  else some (digitsValue (text.takeWhile Char.isDigit), text.dropWhile Char.isDigit)

/-- `strtol` to the base ten, `none` where nothing is converted. -/
def strtol (text : Text) : Option (Int × Text) :=
  let text := skipJsonWhitespace text
  if text.head? = some '-' then (takeDigits text.tail).map fun found => (-found.1, found.2)
  else if text.head? = some '+' then (takeDigits text.tail).map fun found => (found.1, found.2)
  else (takeDigits text).map fun found => (found.1, found.2)

theorem length_skip_le (text : Text) : (skipJsonWhitespace text).length ≤ text.length :=
  (List.dropWhile_sublist isspace).length_le

theorem takeDigits_shorter {text rest : Text} {value : Nat}
    (found : takeDigits text = some (value, rest)) : rest.length < text.length := by
  rw [takeDigits] at found
  split at found
  · cases found
  · rename_i some_
    obtain rfl := (Prod.mk.inj (Option.some.inj found)).2
    have parts := congrArg List.length
      (List.takeWhile_append_dropWhile (p := Char.isDigit) (l := text))
    have := List.length_pos_iff.mpr some_
    rw [List.length_append] at parts
    omega

theorem strtol_shorter {text rest : Text} {value : Int} (found : strtol text = some (value, rest)) :
    rest.length < text.length := by
  have skipped := length_skip_le text
  have signed : ∀ {part : Text} {sign : Nat → Int},
      (takeDigits part).map (fun found => (sign found.1, found.2)) = some (value, rest) →
      rest.length < part.length := by
    intro part sign taken
    obtain ⟨⟨digits, behind⟩, digits_, same⟩ := Option.map_eq_some_iff.mp taken
    obtain rfl := (Prod.mk.inj same).2
    exact takeDigits_shorter digits_
  simp only [strtol] at found
  have tail := List.length_tail (l := skipJsonWhitespace text)
  split at found
  · have := @signed _ (fun digits => -(digits : Int)) found
    omega
  · split at found
    · have := @signed _ (fun digits => (digits : Int)) found
      omega
    · have := @signed _ (fun digits => (digits : Int)) found
      omega

def skipComma (text : Text) : Text := if text.head? = some ',' then text.tail else text

theorem length_skipComma_le (text : Text) : (skipComma text).length ≤ text.length := by
  rw [skipComma]
  split
  · rw [List.length_tail]
    exact Nat.sub_le _ _
  · exact Nat.le_refl _

/-- The loop over the text between the brackets. The closing bracket ends every number. -/
def readInts (maxValues : Int) (p : Text) (dest : List Int) : List Int :=
  if skipJsonWhitespace p = [] then dest
  else
    match _read : strtol (skipJsonWhitespace p) with
    | none => dest
    | some (parsed, parseEnd) =>
      if parsed < 0 ∨ intMax < parsed then dest
      else readInts maxValues (skipComma (skipJsonWhitespace parseEnd))
        (if (dest.length : Int) < maxValues then dest ++ [parsed] else dest)
termination_by p.length
decreasing_by
  have shorter := strtol_shorter _read
  have := length_skip_le p
  have := length_skip_le parseEnd
  have := length_skipComma_le (skipJsonWhitespace parseEnd)
  omega

/-- `PgColbertJsonIntArrayField`: the values written to the array. -/
def jsonIntArrayField (json key : Text) (maxValues : Int) : List Int :=
  match jsonArrayForKey json key with
  | none => []
  | some slice => readInts maxValues slice.tail.dropLast []

/-! ### White space -/

theorem isspace_of_blank {text : Text} (blank : Blank text) : ∀ c ∈ text, isspace c = true := by
  intro c member
  rcases blank c member with rfl | rfl | rfl | rfl <;> decide

theorem skip_append {blank : Text} (isBlank : Blank blank) (rest : Text) :
    skipJsonWhitespace (blank ++ rest) = skipJsonWhitespace rest := by
  rw [skipJsonWhitespace, List.dropWhile_append_of_pos (isspace_of_blank isBlank)]
  rfl

theorem skip_cons {c : Char} (solid : isspace c = false) (rest : Text) :
    skipJsonWhitespace (c :: rest) = c :: rest :=
  List.dropWhile_cons_of_neg (by rw [solid]; exact Bool.false_ne_true)

theorem isDigit_bounds {c : Char} (digit : c.isDigit = true) : 48 ≤ c.toNat ∧ c.toNat ≤ 57 := by
  simp only [Char.isDigit, ge_iff_le, Bool.and_eq_true, decide_eq_true_eq] at digit
  exact ⟨digit.1, digit.2⟩

theorem isspace_of_numeric {c : Char}
    (numeric : c.isDigit = true ∨ c = '-' ∨ c = '+' ∨ c = '.' ∨ c = 'e' ∨ c = 'E') :
    isspace c = false := by
  rcases numeric with digit | rfl | rfl | rfl | rfl | rfl
  · have bounds := isDigit_bounds digit
    have space : c ≠ ' ' := by
      rintro rfl
      exact absurd digit (by decide)
    rw [isspace, beq_false_of_ne space, Bool.false_or, Bool.and_eq_false_iff]
    exact .inr (decide_eq_false (by omega))
  all_goals rfl

theorem value_solid {value : Text} (valid : Valid .value value) :
    ∃ c rest, value = c :: rest ∧ isspace c = false := by
  cases valid with
  | string body => exact ⟨_, _, rfl, rfl⟩
  | scalar scalar =>
    cases scalar with
    | number number =>
      have solid : ∀ c ∈ value, isspace c = false := fun c member =>
        isspace_of_numeric (number.numeric c member)
      obtain ⟨sign, int, frac, exp, rfl, -, ⟨digits, -⟩, -⟩ := number.parts
      rcases split : sign ++ int ++ frac ++ exp with _ | ⟨c, rest⟩
      · simp only [List.append_eq_nil_iff] at split
        exact absurd split.1.1.2 digits.1
      · exact ⟨c, rest, rfl, solid c (split ▸ List.mem_cons_self)⟩
    | true => exact ⟨_, _, rfl, rfl⟩
    | false => exact ⟨_, _, rfl, rfl⟩
    | null => exact ⟨_, _, rfl, rfl⟩
  | empty shape => exact ⟨_, _, rfl, by cases shape <;> rfl⟩
  | @nested shape => exact ⟨_, _, rfl, by cases shape <;> rfl⟩

theorem skip_value {value : Text} (valid : Valid .value value) (rest : Text) :
    skipJsonWhitespace (value ++ rest) = value ++ rest := by
  obtain ⟨c, tail, rfl, solid⟩ := value_solid valid
  exact skip_cons solid _

/-! ### The walk for a key -/

section Walk

variable {key : Text}

/-- Inside of some bracket besides that of the object itself. -/
def Nested (depths : Depths) : Prop :=
  1 ≤ depths.objectDepth ∧ 0 ≤ depths.arrayDepth ∧
    (depths.objectDepth ≠ 1 ∨ depths.arrayDepth ≠ 0)

def deepen : Shape → Depths → Depths
  | .object, depths => { depths with objectDepth := depths.objectDepth + 1 }
  | .array, depths => { depths with arrayDepth := depths.arrayDepth + 1 }

theorem findKeyFrom_opened (depths : Depths) (shape : Shape) (rest : Text) :
    findKeyFrom key (shape.opening :: rest) depths false false =
      findKeyFrom key rest (deepen shape depths) false false := by
  cases shape <;> rfl

theorem findKeyFrom_closed (depths : Depths) (shape : Shape) (rest : Text) :
    findKeyFrom key (shape.closing :: rest) (deepen shape depths) false false =
      findKeyFrom key rest depths false false := by
  cases shape
  · exact congrArg (fun depth => findKeyFrom key rest { depths with objectDepth := depth } false
      false) (Int.add_sub_cancel depths.objectDepth 1)
  · exact congrArg (fun depth => findKeyFrom key rest { depths with arrayDepth := depth } false
      false) (Int.add_sub_cancel depths.arrayDepth 1)

theorem findKeyFrom_quote (depths : Depths) (rest : Text) :
    findKeyFrom key (quote :: rest) depths false false =
      if depths.objectDepth ≠ 1 ∨ depths.arrayDepth ≠ 0 then findKeyFrom key rest depths true false
      else ((jsonKeyEquals (quote :: rest) key).bind valueAfter).or
        (findKeyFrom key rest depths true false) := rfl

theorem findKeyFrom_plain (depths : Depths) {c : Char} (rest : Text) (plain : Plain c) :
    findKeyFrom key (c :: rest) depths false false = findKeyFrom key rest depths false false := by
  have object : c ≠ '{' ∧ c ≠ '}' := plain.2 .object
  have array : c ≠ '[' ∧ c ≠ ']' := plain.2 .array
  rw [findKeyFrom, if_neg Bool.false_ne_true, if_neg object.1, if_neg object.2, if_neg array.1,
    if_neg array.2, if_pos plain.1]

theorem findKeyFrom_skims (key : Text) :
    Skims (fun depths inString escape text => findKeyFrom key text depths inString escape) Nested
      deepen where
  inside _ _ _ _ := rfl
  quoted := fun {depths} rest nested => (findKeyFrom_quote depths rest).trans (if_pos nested.2.2)
  plain := fun depths _ rest plain => findKeyFrom_plain depths rest plain
  opened := findKeyFrom_opened
  closed := fun {depths} shape rest _ => findKeyFrom_closed depths shape rest
  stays := by
    rintro depths (_ | _) ⟨objects, arrays, deep⟩
    · exact ⟨by simp only [deepen]; omega, arrays, .inl (by simp only [deepen]; omega)⟩
    · exact ⟨objects, by simp only [deepen]; omega, .inr (by simp only [deepen]; omega)⟩

end Walk

/-- A key without characters that would have to be escaped. -/
structure Key where
  text : Text
  free : ∀ c ∈ text, c ≠ quote ∧ c ≠ backslash

theorem keyEqualsFrom_body (body : List StringItem) (rest : Text) {key : Text}
    (free : ∀ c ∈ key, c ≠ quote ∧ c ≠ backslash) :
    keyEqualsFrom (bodyText body ++ quote :: rest) key =
      if bodyText body = key then some rest else none := by
  induction body generalizing key with
  | nil =>
    rw [bodyText, List.flatMap_nil, List.nil_append, keyEqualsFrom, if_pos rfl]
    simp only [eq_comm]
  | cons item body ih =>
    have escaped : ∀ {tail}, item.text = backslash :: tail →
        keyEqualsFrom (bodyText (item :: body) ++ quote :: rest) key =
          if bodyText (item :: body) = key then some rest else none := by
      intro tail starts
      have text : bodyText (item :: body) = backslash :: (tail ++ bodyText body) := by
        rw [bodyText, List.flatMap_cons, starts]
        rfl
      have other : bodyText (item :: body) ≠ key := by
        intro same
        exact (free backslash (same ▸ text ▸ List.mem_cons_self)).2 rfl
      rw [if_neg other, text, List.cons_append, keyEqualsFrom, if_neg (by decide), if_pos rfl]
    cases item with
    | plain c ok =>
      have text : bodyText (.plain c ok :: body) = c :: bodyText body := rfl
      rw [text, List.cons_append, keyEqualsFrom, if_neg ok.1, if_neg ok.2.1]
      rcases key with _ | ⟨k, key⟩
      · rfl
      · simp only [List.head?_cons, List.tail_cons, Option.some.injEq, List.cons.injEq]
        by_cases same : k = c
        · rw [if_pos same, ih fun d member => free d (List.mem_cons_of_mem _ member)]
          simp only [same, true_and]
        · rw [if_neg same, if_neg fun both => same both.1.symm]
    | escape letter content known => exact escaped rfl
    | code one two three four hex => exact escaped rfl

/-- The object itself, no bracket inside of it being open. -/
def topDepths : Depths := ⟨1, 0⟩

section Top

variable (key : Key)

/-- A string of the object itself is the key that is looked for, or it is passed over. -/
theorem findKeyFrom_string (body : List StringItem) (rest : Text) :
    findKeyFrom key.text (stringText body ++ rest) topDepths false false =
      (if bodyText body = key.text then valueAfter rest else none).or
        (findKeyFrom key.text rest topDepths false false) := by
  have text : stringText body ++ rest = quote :: (bodyText body ++ quote :: rest) := by
    rw [stringText, List.cons_append, List.append_assoc, List.singleton_append]
  have compared : jsonKeyEquals (quote :: (bodyText body ++ quote :: rest)) key.text =
      if bodyText body = key.text then some rest else none := by
    rw [jsonKeyEquals, List.head?_cons, if_pos rfl, List.tail_cons,
      keyEqualsFrom_body body rest key.free]
  have top : ¬(topDepths.objectDepth ≠ 1 ∨ topDepths.arrayDepth ≠ 0) := by decide
  rw [text, findKeyFrom_quote, if_neg top, compared,
    (findKeyFrom_skims key.text).body topDepths body rest]
  by_cases same : bodyText body = key.text
  · rw [if_pos same, if_pos same, Option.bind_some]
  · rw [if_neg same, if_neg same, Option.bind_none]

theorem valueAfter_none {rest : Text} (other : (skipJsonWhitespace rest).head? ≠ some ':') :
    valueAfter rest = none := if_neg other

theorem findKeyFrom_value {value : Text} (valid : Valid .value value) {rest : Text}
    (other : (skipJsonWhitespace rest).head? ≠ some ':') :
    findKeyFrom key.text (value ++ rest) topDepths false false =
      findKeyFrom key.text rest topDepths false false := by
  have skims := findKeyFrom_skims key.text
  have deeper : ∀ shape, Nested (deepen shape topDepths) := by
    intro shape
    cases shape
    · exact ⟨by decide, by decide, .inl (by decide)⟩
    · exact ⟨by decide, by decide, .inr (by decide)⟩
  cases valid with
  | string body =>
    rw [findKeyFrom_string, valueAfter_none other, ite_self, Option.none_or]
  | scalar scalar => exact skims.plains topDepths scalar.plain rest
  | empty shape blank =>
    rw [List.cons_append, findKeyFrom_opened, List.append_assoc,
      skims.plains (deepen shape topDepths) (plain_of_blank blank), List.singleton_append,
      findKeyFrom_closed]
  | @nested shape text items =>
    rw [List.cons_append, findKeyFrom_opened, List.append_assoc,
      skims.valid items (deeper shape), List.singleton_append, findKeyFrom_closed]

theorem valueAfter_member (member : Member) (rest : Text) :
    valueAfter (member.between ++ ':' :: (member.gap ++ (member.value ++ (member.after ++ rest)))) =
      some (member.value ++ (member.after ++ rest)) := by
  have colon : isspace ':' = false := rfl
  rw [valueAfter, skip_append member.blankBetween, skip_cons colon]
  show (if some ':' = some ':' then _ else _) = _
  rw [if_pos rfl, List.tail_cons, skip_append member.blankGap, skip_value member.valid]

theorem findKeyFrom_member (member : Member) {c : Char} (rest : Text) (solid : isspace c = false)
    (other : c ≠ ':') :
    findKeyFrom key.text (member.text ++ c :: rest) topDepths false false =
      (if bodyText member.key = key.text then
        some (member.value ++ (member.after ++ c :: rest)) else none).or
        (findKeyFrom key.text (c :: rest) topDepths false false) := by
  have skims := findKeyFrom_skims key.text
  have blanks : ∀ {blank : Text} (isBlank : Blank blank) (rest : Text),
      findKeyFrom key.text (blank ++ rest) topDepths false false =
        findKeyFrom key.text rest topDepths false false := fun isBlank rest =>
    skims.plains topDepths (plain_of_blank isBlank) rest
  have colon : Plain ':' := ⟨by decide, fun shape => by cases shape <;> decide⟩
  have behind : (skipJsonWhitespace (member.after ++ c :: rest)).head? ≠ some ':' := by
    rw [skip_append member.blankAfter, skip_cons solid, List.head?_cons]
    exact fun same => other (Option.some.inj same)
  rw [Member.text]
  simp only [List.append_assoc, List.cons_append]
  rw [blanks member.blankBefore, findKeyFrom_string, valueAfter_member,
    blanks member.blankBetween, findKeyFrom_plain _ _ colon, blanks member.blankGap,
    findKeyFrom_value key member.valid behind, blanks member.blankAfter]

variable {trailing : Text}

/-- What a key finds: its value, and what stands behind it. -/
def valueOf (trailing : Text) (found : Member × List Member) : Text :=
  found.1.value ++ (found.1.after ++ (laterText found.2 ++ '}' :: trailing))

theorem findKeyFrom_next (member : Member) (later : List Member)
    (ih : findKeyFrom key.text (laterText later ++ '}' :: trailing) topDepths false false =
      (firstMember key.text later).map (valueOf trailing)) :
    findKeyFrom key.text (member.text ++ (laterText later ++ '}' :: trailing)) topDepths false
      false = (firstMember key.text (member :: later)).map (valueOf trailing) := by
  obtain ⟨c, rest, next, solid, other⟩ : ∃ c rest, laterText later ++ '}' :: trailing = c :: rest ∧
      isspace c = false ∧ c ≠ ':' := by
    cases later with
    | nil => exact ⟨'}', trailing, rfl, rfl, by decide⟩
    | cons => exact ⟨',', _, rfl, rfl, by decide⟩
  rw [next, findKeyFrom_member key member rest solid other, ← next, ih, firstMember]
  by_cases same : bodyText member.key = key.text
  · rw [if_pos same, if_pos same, Option.some_or]
    rfl
  · rw [if_neg same, if_neg same, Option.none_or]

variable (blank : Blank trailing)

include blank

theorem findKeyFrom_end : findKeyFrom key.text ('}' :: trailing) topDepths false false = none := by
  have closed : findKeyFrom key.text ('}' :: trailing) topDepths false false =
      findKeyFrom key.text (trailing ++ []) ⟨0, 0⟩ false false := by
    rw [List.append_nil]
    exact findKeyFrom_closed ⟨0, 0⟩ .object trailing
  rw [closed, (findKeyFrom_skims key.text).plains _ (plain_of_blank blank)]
  rfl

theorem findKeyFrom_later (members : List Member) :
    findKeyFrom key.text (laterText members ++ '}' :: trailing) topDepths false false =
      (firstMember key.text members).map (valueOf trailing) := by
  induction members with
  | nil => exact findKeyFrom_end key blank
  | cons member later ih =>
    have comma : Plain ',' := ⟨by decide, fun shape => by cases shape <;> decide⟩
    have text : laterText (member :: later) ++ '}' :: trailing =
        ',' :: (member.text ++ (laterText later ++ '}' :: trailing)) := by
      rw [laterText, List.flatMap_cons, List.cons_append, List.cons_append, List.append_assoc]
      rfl
    rw [text, findKeyFrom_plain _ _ comma, findKeyFrom_next key member later ih]

end Top

/-- **The first member of the object with the key is found**, wherever else the key occurs. -/
theorem jsonFindKey_eq (object : ObjectText) (key : Key) :
    jsonFindKey object.text key.text =
      (firstMember key.text object.members).map (valueOf object.trailing) := by
  have blanks : ∀ (depths : Depths) {blank : Text} (isBlank : Blank blank) (rest : Text),
      findKeyFrom key.text (blank ++ rest) depths false false =
        findKeyFrom key.text rest depths false false := fun depths _ isBlank rest =>
    (findKeyFrom_skims key.text).plains depths (plain_of_blank isBlank) rest
  have opened := @findKeyFrom_opened key.text ⟨0, 0⟩ .object
  rw [jsonFindKey, ObjectText.text, blanks _ object.blankLeading]
  refine (opened _).trans ?_
  show findKeyFrom key.text _ topDepths false false = _
  rw [blanks _ object.blankInner]
  rcases object.members with _ | ⟨member, later⟩
  · exact findKeyFrom_end key object.blankTrailing
  · rw [membersText, List.append_assoc]
    exact findKeyFrom_next key member later
      (findKeyFrom_later key object.blankTrailing later)

/-! ### Balanced slices -/

theorem opening_injective {one other : Shape} (same : one.opening = other.opening) :
    one = other := by
  cases one <;> cases other <;> first | rfl | exact absurd same (by decide)

/-- The depth behind a bracket, of which those of one shape count. -/
def bracketDepth (shape inner : Shape) (depth : Int) : Int := if inner = shape then depth + 1 else depth

theorem sliceFrom_skims (shape : Shape) :
    Skims (fun depth inString escape text =>
      sliceFrom shape.opening shape.closing text depth inString escape) (1 ≤ ·)
      (bracketDepth shape) where
  inside _ _ _ _ := rfl
  quoted _ _ := rfl
  plain := by
    intro depth c rest plain
    show sliceFrom _ _ (c :: rest) depth false false = _
    rw [sliceFrom, if_neg Bool.false_ne_true, if_neg plain.1, if_neg (plain.2 shape).1,
      if_neg (plain.2 shape).2]
  opened depth inner rest := by cases shape <;> cases inner <;> rfl
  closed := by
    intro depth inner rest deep
    by_cases same : inner = shape
    · have back : depth + 1 - 1 = depth := Int.add_sub_cancel depth 1
      have closing : shape.closing ≠ quote ∧ shape.closing ≠ shape.opening := by
        cases shape <;> decide
      have positive : depth ≠ 0 := by omega
      subst same
      show sliceFrom _ _ (inner.closing :: rest) (bracketDepth inner inner depth) false false = _
      rw [bracketDepth, if_pos rfl, sliceFrom, if_neg Bool.false_ne_true, if_neg closing.1,
        if_neg closing.2, if_pos rfl, back, if_neg positive]
    · show sliceFrom _ _ (inner.closing :: rest) (bracketDepth shape inner depth) false false = _
      rw [bracketDepth, if_neg same]
      cases shape <;> cases inner <;> first | rfl | exact absurd rfl same
  stays := by
    intro depth inner deep
    show 1 ≤ bracketDepth shape inner depth
    rw [bracketDepth]
    split <;> omega

theorem sliceFrom_value {shape : Shape} {inner : Text} (rest : Text)
    (skipped : ∀ rest, sliceFrom shape.opening shape.closing (inner ++ rest) 1 false false =
      sliceFrom shape.opening shape.closing rest 1 false false) :
    sliceFrom shape.opening shape.closing (shape.opening :: (inner ++ [shape.closing]) ++ rest) 0
      false false = some rest := by
  have opened := (sliceFrom_skims shape).opened 0 shape (inner ++ (shape.closing :: rest))
  rw [bracketDepth, if_pos rfl] at opened
  rw [List.cons_append, List.append_assoc, List.singleton_append]
  refine opened.trans ((skipped _).trans ?_)
  cases shape <;> rfl

/-- **The slice of a value is its text**, where it starts with the bracket. -/
theorem jsonSliceBalanced_value {value : Text} (valid : Valid .value value) (shape : Shape)
    (rest : Text) :
    jsonSliceBalanced (value ++ rest) shape.opening shape.closing =
      if value.head? = some shape.opening then some value else none := by
  have skims := sliceFrom_skims shape
  have found : value.head? = some shape.opening →
      sliceFrom shape.opening shape.closing (value ++ rest) 0 false false = some rest := by
    intro head
    cases valid with
    | string body =>
      exact absurd (Option.some.inj head) (by cases shape <;> decide)
    | scalar scalar =>
      have member := List.mem_of_mem_head? head
      exact absurd rfl ((scalar.plain _ member).2 shape).1
    | empty other blank =>
      obtain rfl := opening_injective (Option.some.inj head)
      exact sliceFrom_value rest fun rest => skims.plains 1 (plain_of_blank blank) rest
    | @nested other text items =>
      obtain rfl := opening_injective (Option.some.inj head)
      exact sliceFrom_value rest fun rest => skims.valid items (Int.le_refl 1) rest
  obtain ⟨c, tail, rfl, -⟩ := value_solid valid
  rw [jsonSliceBalanced]
  by_cases head : (c :: tail).head? = some shape.opening
  · have starts : (c :: tail ++ rest).head? = some shape.opening := head
    have length : (c :: tail ++ rest).length - rest.length = (c :: tail).length := by
      rw [List.length_append, Nat.add_sub_cancel]
    rw [if_pos head, if_pos starts, found head, Option.map_some, length, List.take_left]
  · have starts : (c :: tail ++ rest).head? ≠ some shape.opening := head
    rw [if_neg head, if_neg starts]

theorem jsonSliceForKey_eq (object : ObjectText) (key : Key) (shape : Shape) :
    jsonSliceForKey shape object.text key.text =
      (firstMember key.text object.members).bind fun found =>
        if found.1.value.head? = some shape.opening then some found.1.value else none := by
  rw [jsonSliceForKey, jsonFindKey_eq, Option.bind_map]
  refine congrArg _ (funext fun found => ?_)
  rw [Function.comp_apply, valueOf, skip_value found.1.valid,
    jsonSliceBalanced_value found.1.valid]

/-! ### Strings -/

theorem decode_cons (item : StringItem) (body : List StringItem) :
    decode (item :: body) = item.content.bind fun c => (decode body).map (c :: ·) := by
  rw [decode, decode, List.mapM_cons]
  cases item.content with
  | none => rfl
  | some c => cases body.mapM StringItem.content <;> rfl

theorem unescape_known {letter content : Char} (known : (letter, content) ∈ escapes) :
    unescape letter = some content := by
  simp only [escapes, List.mem_cons, Prod.mk.injEq, List.not_mem_nil, or_false] at known
  rcases known with ⟨rfl, rfl⟩ | ⟨rfl, rfl⟩ | ⟨rfl, rfl⟩ | ⟨rfl, rfl⟩ | ⟨rfl, rfl⟩ | ⟨rfl, rfl⟩ |
    ⟨rfl, rfl⟩ | ⟨rfl, rfl⟩ <;> rfl

theorem readStringFrom_body (room : Nat) (body : List StringItem) (rest out : Text) :
    readStringFrom room (bodyText body ++ quote :: rest) false out =
      (decode body).map fun content => content.foldl (put room) out := by
  induction body generalizing out with
  | nil => rfl
  | cons item body ih =>
    rw [decode_cons, bodyText, List.flatMap_cons, List.append_assoc, ← bodyText]
    cases item with
    | plain c free =>
      rw [StringItem.text, List.singleton_append, readStringFrom, if_neg free.1, if_neg free.2.1,
        ih, StringItem.content, Option.bind_some, Option.map_map]
      rfl
    | escape letter content known =>
      rw [StringItem.text, List.cons_append, List.singleton_append, readStringFrom,
        if_neg (by decide), if_pos rfl, readStringFrom, unescape_known known, Option.bind_some, ih,
        StringItem.content, Option.bind_some, Option.map_map]
      rfl
    | code one two three four hex => rfl

theorem foldl_put (room : Nat) (content out : Text) :
    content.foldl (put room) out = out ++ content.take (room - out.length) := by
  induction content generalizing out with
  | nil => simp
  | cons c content ih =>
    rw [List.foldl_cons, ih, put]
    split
    · rename_i fits
      have next : room - out.length = room - (out ++ [c]).length + 1 := by
        rw [List.length_append, List.length_singleton]
        omega
      rw [next, List.take_succ_cons, List.append_assoc, List.singleton_append]
    · rename_i full
      have none_ : room - out.length = 0 := by omega
      rw [none_, List.take_zero, List.take_zero]

/-- **The content of a string without unicode escapes, cut to the buffer.** -/
theorem jsonReadStringValue_string (body : List StringItem) (rest : Text) {destSize : Nat}
    (positive : 0 < destSize) :
    jsonReadStringValue (stringText body ++ rest) destSize =
      (decode body).map fun content => content.take (destSize - 1) := by
  have text : stringText body ++ rest = quote :: (bodyText body ++ quote :: rest) := by
    rw [stringText, List.cons_append, List.append_assoc, List.singleton_append]
  have solid : isspace quote = false := rfl
  rw [jsonReadStringValue, if_neg (Nat.pos_iff_ne_zero.mp positive)]
  simp only [text, skip_cons solid, List.head?_cons, if_pos, List.tail_cons, readStringFrom_body]
  refine congrArg (Option.map · (decode body)) (funext fun content => ?_)
  rw [foldl_put]
  rfl

/-! ### Integers -/

/-- An integer that is not negative, as an element of an array. -/
structure IntElement where
  before : Text
  minus : Bool
  digits : Text
  after : Text
  blankBefore : Blank before
  isNumber : Digits digits
  blankAfter : Blank after
  nonneg : minus = true → digitsValue digits = 0

namespace IntElement

def value (element : IntElement) : Int := digitsValue element.digits

def text (element : IntElement) : Text :=
  element.before ++ ((if element.minus then ['-'] else []) ++ (element.digits ++ element.after))

end IntElement

def laterElements (elements : List IntElement) : Text :=
  elements.flatMap fun element => ',' :: element.text

def elementsText : List IntElement → Text
  | [] => []
  | element :: later => element.text ++ laterElements later

/-- An array of integers, with the white space of an empty one. -/
def arrayText (inner : Text) (elements : List IntElement) : Text :=
  '[' :: (inner ++ elementsText elements ++ [']'])

theorem takeDigits_append {digits rest : Text} (isNumber : Digits digits)
    (stops : ∀ c ∈ rest.head?, c.isDigit = false) :
    takeDigits (digits ++ rest) = some (digitsValue digits, rest) := by
  have taken : (digits ++ rest).takeWhile Char.isDigit = digits := by
    rw [List.takeWhile_append_of_pos isNumber.2]
    cases rest with
    | nil => exact List.append_nil _
    | cons c rest =>
      rw [List.takeWhile_cons_of_neg (by rw [stops c rfl]; exact Bool.false_ne_true),
        List.append_nil]
  have dropped : (digits ++ rest).dropWhile Char.isDigit = rest := by
    rw [List.dropWhile_append_of_pos isNumber.2]
    cases rest with
    | nil => rfl
    | cons c rest =>
      exact List.dropWhile_cons_of_neg (by rw [stops c rfl]; exact Bool.false_ne_true)
  rw [takeDigits, taken, dropped, if_neg isNumber.1]

theorem strtol_element (element : IntElement) {rest : Text}
    (stops : ∀ c ∈ (element.after ++ rest).head?, c.isDigit = false) :
    skipJsonWhitespace (element.text ++ rest) ≠ [] ∧
      strtol (skipJsonWhitespace (element.text ++ rest)) =
        some (element.value, element.after ++ rest) := by
  have digits := takeDigits_append element.isNumber stops
  have minusSolid : isspace '-' = false := rfl
  rw [IntElement.text, List.append_assoc, skip_append element.blankBefore]
  cases minus : element.minus with
  | true =>
    rw [if_pos rfl, List.append_assoc, List.singleton_append, skip_cons minusSolid,
      List.append_assoc]
    refine ⟨List.cons_ne_nil _ _, ?_⟩
    rw [strtol, skip_cons minusSolid]
    show (if some '-' = some '-' then _ else _) = _
    rw [if_pos rfl, List.tail_cons, digits, Option.map_some, IntElement.value,
      element.nonneg minus]
    rfl
  | false =>
    rw [if_neg Bool.false_ne_true, List.nil_append, List.append_assoc]
    obtain ⟨first, more, split⟩ := List.exists_cons_of_ne_nil element.isNumber.1
    have digit : first.isDigit = true :=
      element.isNumber.2 first (split ▸ List.mem_cons_self)
    have solid := isspace_of_numeric (.inl digit)
    have sign : some first ≠ some '-' ∧ some first ≠ some '+' :=
      ⟨fun same => absurd (Option.some.inj same ▸ digit) (by decide),
        fun same => absurd (Option.some.inj same ▸ digit) (by decide)⟩
    have start : skipJsonWhitespace (element.digits ++ (element.after ++ rest)) =
        element.digits ++ (element.after ++ rest) := by
      rw [split]
      exact skip_cons solid _
    have head : (element.digits ++ (element.after ++ rest)).head? = some first := by
      rw [split]
      rfl
    rw [start]
    refine ⟨fun empty => element.isNumber.1 (List.append_eq_nil_iff.mp empty).1, ?_⟩
    simp only [strtol, start, head, if_neg sign.1, if_neg sign.2, digits, Option.map_some]
    rfl

theorem readInts_nil (maxValues : Int) {p : Text} (empty : skipJsonWhitespace p = [])
    (dest : List Int) : readInts maxValues p dest = dest := by
  rw [readInts, if_pos empty]

theorem readInts_some {maxValues : Int} {p parseEnd : Text} {parsed : Int} {dest : List Int}
    (nonempty : skipJsonWhitespace p ≠ [])
    (read : strtol (skipJsonWhitespace p) = some (parsed, parseEnd)) :
    readInts maxValues p dest =
      if parsed < 0 ∨ intMax < parsed then dest
      else readInts maxValues (skipComma (skipJsonWhitespace parseEnd))
        (if (dest.length : Int) < maxValues then dest ++ [parsed] else dest) := by
  rw [readInts, if_neg nonempty]
  split
  · rename_i missing
    exact absurd (missing.symm.trans read) (Option.some_ne_none _).symm
  · rename_i found
    obtain ⟨rfl, rfl⟩ := Prod.mk.inj (Option.some.inj (found.symm.trans read))
    rfl

theorem laterElements_head (later : List IntElement) :
    laterElements later = [] ∨ ∃ rest, laterElements later = ',' :: rest := by
  cases later with
  | nil => exact .inl rfl
  | cons element later => exact .inr ⟨_, rfl⟩

theorem readInts_element (maxValues : Int) (element : IntElement) (later : List IntElement)
    (dest : List Int) :
    readInts maxValues (element.text ++ laterElements later) dest =
      if intMax < element.value then dest
      else readInts maxValues (skipComma (laterElements later))
        (if (dest.length : Int) < maxValues then dest ++ [element.value] else dest) := by
  have blankStops : ∀ c : Char, c = ' ' ∨ c = '\t' ∨ c = '\n' ∨ c = '\r' → c.isDigit = false := by
    rintro c (rfl | rfl | rfl | rfl) <;> rfl
  have stops : ∀ c ∈ (element.after ++ laterElements later).head?, c.isDigit = false := by
    intro c head
    rcases after : element.after with _ | ⟨first, more⟩
    · rw [after, List.nil_append] at head
      rcases laterElements_head later with empty | ⟨rest, text⟩
      · rw [empty] at head
        cases head
      · rw [text] at head
        obtain rfl := Option.some.inj head
        rfl
    · rw [after] at head
      obtain rfl := Option.some.inj head
      exact blankStops _ (element.blankAfter _ (after ▸ List.mem_cons_self))
  obtain ⟨nonempty, read⟩ := strtol_element element stops
  have behind : skipJsonWhitespace (element.after ++ laterElements later) =
      laterElements later := by
    rw [skip_append element.blankAfter]
    rcases laterElements_head later with empty | ⟨rest, text⟩
    · rw [empty]
      rfl
    · rw [text]
      exact skip_cons rfl rest
  have positive : ¬element.value < 0 := Int.not_lt.mpr (Int.natCast_nonneg _)
  rw [readInts_some nonempty read, behind]
  simp only [positive, false_or]

/-- The values in the range up to the first beyond it, as many as are wanted. -/
def inRange (maxValues : Nat) (values : List Int) : List Int :=
  (values.takeWhile fun value => decide (value ≤ intMax)).take maxValues

theorem readInts_later (maxValues : Int) (elements : List IntElement) (dest : List Int) :
    readInts maxValues (skipComma (laterElements elements)) dest =
      dest ++ inRange (maxValues - dest.length).toNat (elements.map IntElement.value) := by
  induction elements generalizing dest with
  | nil =>
    rw [readInts_nil maxValues rfl dest]
    simp [inRange]
  | cons element later ih =>
    have text : skipComma (laterElements (element :: later)) =
        element.text ++ laterElements later := rfl
    rw [text, readInts_element, List.map_cons, inRange, List.takeWhile_cons]
    by_cases large : intMax < element.value
    · rw [if_pos large, decide_eq_false (Int.not_le.mpr large)]
      simp
    · rw [if_neg large, decide_eq_true (Int.not_lt.mp large), ih]
      simp only [if_true]
      split
      · rename_i fits
        have room : (maxValues - (dest.length : Int)).toNat =
            (maxValues - ((dest ++ [element.value]).length : Int)).toNat + 1 := by
          rw [List.length_append, List.length_singleton]
          omega
        rw [room, List.take_succ_cons, List.append_assoc, List.singleton_append]
        rfl
      · rename_i full
        have room : (maxValues - (dest.length : Int)).toNat = 0 := by omega
        rw [inRange, room, List.take_zero, List.take_zero]

theorem readInts_elements (maxValues : Int) {inner : Text} (blank : Blank inner)
    (elements : List IntElement) :
    readInts maxValues (inner ++ elementsText elements) [] =
      inRange maxValues.toNat (elements.map IntElement.value) := by
  have started : ∀ p, readInts maxValues (inner ++ p) [] = readInts maxValues p [] := by
    intro p
    rw [readInts]
    conv_rhs => rw [readInts]
    rw [skip_append blank]
  rw [started]
  rcases elements with _ | ⟨element, later⟩
  · rw [elementsText, readInts_nil maxValues rfl]
    simp [inRange]
  · have next := readInts_later maxValues (element :: later) []
    have room : maxValues - ((0 : Nat) : Int) = maxValues := Int.sub_zero maxValues
    rw [List.length_nil, room, List.nil_append] at next
    exact next

/-! ### Objects -/

/-- **What the reader finds** in the text of an object. -/
structure ReadsMembers (object : ObjectText) (key : Key) : Prop where
  value : jsonFindKey object.text key.text =
    (firstMember key.text object.members).map (valueOf object.trailing)
  objectSlice : jsonObjectForKey object.text key.text =
    (firstMember key.text object.members).bind fun found =>
      if found.1.value.head? = some '{' then some found.1.value else none
  arraySlice : jsonArrayForKey object.text key.text =
    (firstMember key.text object.members).bind fun found =>
      if found.1.value.head? = some '[' then some found.1.value else none
  string : ∀ {found body}, firstMember key.text object.members = some found →
    found.1.value = stringText body → ∀ {destSize}, 0 < destSize →
    jsonStringField object.text key.text destSize =
      (decode body).map fun content => content.take (destSize - 1)
  integers : ∀ {found inner elements}, firstMember key.text object.members = some found →
    Blank inner → found.1.value = arrayText inner elements → ∀ maxValues,
    jsonIntArrayField object.text key.text maxValues =
      inRange maxValues.toNat (elements.map IntElement.value)

section Objects

variable {object : ObjectText} {key : Key} {found : Member × List Member}

theorem jsonStringField_eq {body : List StringItem}
    (first : firstMember key.text object.members = some found)
    (isString : found.1.value = stringText body) {destSize : Nat} (positive : 0 < destSize) :
    jsonStringField object.text key.text destSize =
      (decode body).map fun content => content.take (destSize - 1) := by
  rw [jsonStringField, jsonFindKey_eq, first, Option.map_some, Option.bind_some, valueOf, isString,
    jsonReadStringValue_string body _ positive]

theorem jsonIntArrayField_eq {inner : Text} {elements : List IntElement}
    (first : firstMember key.text object.members = some found) (blank : Blank inner)
    (isArray : found.1.value = arrayText inner elements) (maxValues : Int) :
    jsonIntArrayField object.text key.text maxValues =
      inRange maxValues.toNat (elements.map IntElement.value) := by
  have slice : jsonArrayForKey object.text key.text = some (arrayText inner elements) := by
    rw [jsonArrayForKey, jsonSliceForKey_eq, first, Option.bind_some, isArray]
    rfl
  have between : (arrayText inner elements).tail.dropLast = inner ++ elementsText elements := by
    rw [arrayText, List.tail_cons, List.dropLast_concat]
  rw [jsonIntArrayField, slice]
  show readInts maxValues (arrayText inner elements).tail.dropLast [] = _
  rw [between, readInts_elements maxValues blank]

theorem reads_members (object : ObjectText) (key : Key) : ReadsMembers object key where
  value := jsonFindKey_eq object key
  objectSlice := jsonSliceForKey_eq object key .object
  arraySlice := jsonSliceForKey_eq object key .array
  string := jsonStringField_eq
  integers := jsonIntArrayField_eq

end Objects

/-! ### Any text -/

/-- **What the reader returns lies inside the text**, and what it writes inside the buffers. -/
structure StaysInside (json key : Text) : Prop where
  value : ∀ {value}, jsonFindKey json key = some value → value <:+ json
  slice : ∀ {shape slice}, jsonSliceForKey shape json key = some slice → slice <:+: json
  string : ∀ {destSize content}, jsonStringField json key destSize = some content →
    content.length < destSize
  integers : ∀ maxValues, (jsonIntArrayField json key maxValues).length ≤ maxValues.toNat

theorem keyEqualsFrom_suffix {text key after : Text} (found : keyEqualsFrom text key = some after) :
    after <:+ text := by
  induction text generalizing key with
  | nil => cases found
  | cons c rest ih =>
    have behind := List.suffix_cons c rest
    rw [keyEqualsFrom] at found
    split at found
    · split at found
      · obtain rfl := Option.some.inj found
        exact behind
      · cases found
    · split at found
      · cases found
      · split at found
        · exact (ih found).trans behind
        · cases found

theorem valueAfter_suffix {after value : Text} (found : valueAfter after = some value) :
    value <:+ after := by
  rw [valueAfter] at found
  split at found
  · obtain rfl := Option.some.inj found
    exact (List.dropWhile_suffix _).trans
      ((List.tail_suffix _).trans (List.dropWhile_suffix _))
  · cases found

theorem findKeyFrom_suffix {key text value : Text} {depths : Depths} {inString escape : Bool}
    (found : findKeyFrom key text depths inString escape = some value) : value <:+ text := by
  induction text generalizing depths inString escape with
  | nil => cases found
  | cons c rest ih =>
    have behind : ∀ {depths inString escape},
        findKeyFrom key rest depths inString escape = some value → value <:+ c :: rest :=
      fun found => (ih found).trans (List.suffix_cons c rest)
    rw [findKeyFrom] at found
    repeat' split at found
    all_goals first
      | exact behind found
      | rcases Option.or_eq_some_iff.mp found with here | ⟨-, later⟩
        · obtain ⟨after, compared, valued⟩ := Option.bind_eq_some_iff.mp here
          rw [jsonKeyEquals] at compared
          split at compared
          · exact (valueAfter_suffix valued).trans
              ((keyEqualsFrom_suffix compared).trans (List.suffix_cons c rest))
          · cases compared
        · exact behind later

theorem jsonSliceForKey_infix {shape : Shape} {json key slice : Text}
    (found : jsonSliceForKey shape json key = some slice) : slice <:+: json := by
  obtain ⟨value, valued, sliced⟩ := Option.bind_eq_some_iff.mp found
  rw [jsonSliceBalanced] at sliced
  split at sliced
  · obtain ⟨rest, -, rfl⟩ := Option.map_eq_some_iff.mp sliced
    exact (List.take_prefix _ _).isInfix.trans
      ((List.dropWhile_suffix _).trans (findKeyFrom_suffix valued)).isInfix
  · cases sliced

theorem readStringFrom_length {room : Nat} {text out content : Text} {escape : Bool}
    (read : readStringFrom room text escape out = some content) (fits : out.length ≤ room) :
    content.length ≤ room := by
  have put_fits : ∀ (out : Text) (c : Char), out.length ≤ room →
      (put room out c).length ≤ room := by
    intro out c fits
    rw [put]
    split
    · rw [List.length_append, List.length_singleton]
      omega
    · exact fits
  induction text generalizing out escape with
  | nil => cases read
  | cons c rest ih =>
    cases escape with
    | true =>
      obtain ⟨meant, -, later⟩ := Option.bind_eq_some_iff.mp read
      exact ih later (put_fits out meant fits)
    | false =>
      rw [readStringFrom] at read
      split at read
      · obtain rfl := Option.some.inj read
        exact fits
      · split at read
        · exact ih read fits
        · exact ih read (put_fits out c fits)

theorem readInts_length (maxValues : Int) (p : Text) (dest : List Int)
    (fits : dest.length ≤ maxValues.toNat) :
    (readInts maxValues p dest).length ≤ maxValues.toNat := by
  fun_induction readInts maxValues p dest with
  | case1 => exact fits
  | case2 => exact fits
  | case3 => exact fits
  | case4 p dest _ parsed parseEnd read inside ih =>
    refine ih ?_
    split
    · rw [List.length_append, List.length_singleton]
      omega
    · exact fits

theorem stays_inside (json key : Text) : StaysInside json key where
  value := findKeyFrom_suffix
  slice := jsonSliceForKey_infix
  string := by
    intro destSize content read
    obtain ⟨value, -, read⟩ := Option.bind_eq_some_iff.mp read
    rw [jsonReadStringValue] at read
    split at read
    · cases read
    · dsimp only at read
      split at read
      · have := readStringFrom_length read (Nat.zero_le _)
        omega
      · cases read
  integers := by
    intro maxValues
    rw [jsonIntArrayField]
    split
    · exact Nat.zero_le _
    · exact readInts_length maxValues _ [] (Nat.zero_le _)

/-- **The JSON reader**: every text of an object is one with members, among which the reader finds
the first with the key, whose value it reads; and on any text it stays inside. -/
theorem jsonReader_right :
    (∀ text, IsObject text → ∃ object : ObjectText, object.text = text) ∧
      (∀ object key, ReadsMembers object key) ∧ ∀ json key, StaysInside json key :=
  ⟨fun _ => exists_object, reads_members, stays_inside⟩

/-! ### An integer beyond the range -/

section Large

theorem blank_nil : Blank [] := fun _ member => absurd member List.not_mem_nil

theorem large_digits : Digits ['2', '1', '4', '7', '4', '8', '3', '6', '4', '8'] :=
  ⟨List.cons_ne_nil _ _, List.all_eq_true.mp rfl⟩

def largeElement : IntElement where
  before := []
  minus := false
  digits := ['2', '1', '4', '7', '4', '8', '3', '6', '4', '8']
  after := []
  blankBefore := blank_nil
  isNumber := large_digits
  blankAfter := blank_nil
  nonneg := fun minus => absurd minus Bool.false_ne_true

theorem large_valid : Valid .value (arrayText [] [largeElement]) :=
  .nested (.one (.element blank_nil (.scalar (.number ⟨[], largeElement.digits, [], [],
    rfl, .inl rfl, ⟨large_digits, by decide⟩, .inl rfl, .inl rfl⟩)) blank_nil))

def largeMember : Member where
  before := []
  key := []
  between := []
  gap := []
  value := arrayText [] [largeElement]
  after := []
  blankBefore := blank_nil
  blankBetween := blank_nil
  blankGap := blank_nil
  valid := large_valid
  blankAfter := blank_nil

/-- An object of one member, whose key is empty and whose value is an array of that integer. -/
def largeObject : ObjectText where
  leading := []
  inner := []
  members := [largeMember]
  trailing := []
  blankLeading := blank_nil
  blankInner := blank_nil
  blankTrailing := blank_nil

/-- **An integer from 2147483648 on ends the array.** -/
theorem jsonReader_cuts : ¬∀ (object : ObjectText) (key : Key) (found : Member × List Member)
    (inner : Text) (elements : List IntElement), firstMember key.text object.members = some found →
    Blank inner → found.1.value = arrayText inner elements → ∀ maxValues : Int,
    jsonIntArrayField object.text key.text maxValues =
      (elements.map IntElement.value).take maxValues.toNat := by
  intro always
  have free : ∀ c ∈ ([] : Text), c ≠ quote ∧ c ≠ backslash := fun _ member =>
    absurd member List.not_mem_nil
  let key : Key := ⟨[], free⟩
  have first : firstMember key.text largeObject.members = some (largeMember, []) := rfl
  have claimed := always largeObject key (largeMember, []) [] [largeElement] first blank_nil rfl 1
  rw [jsonIntArrayField_eq first blank_nil rfl] at claimed
  exact absurd claimed (by decide)

end Large

end TurboHybrid.Colbert
