import Docbase.Proofs.Double.Text
import Docbase.Proofs.Text.Quoted
import Docbase.Value.Order

/-!
# Values can be read off their texts

The form in which messages show a value says which value it is, as long as the value is made of
data, and its doubles are numbers: texts are quoted, containers are closed, and everything else is
a word that ends where a container goes on.
-/

namespace Docbase

open Text

variable {r r' : List Char}

namespace Timestamp

/-! ## Timestamps -/

def listed (days rest : Int) : List Char :=
  if days = 0 then "seconds=".toList ++ rest.repr.toList
  else "days=".toList ++ (days.repr.toList ++
    if rest = 0 then [] else ", seconds=".toList ++ rest.repr.toList)

theorem listed_append_inj {days rest days' rest' : Int}
    (h : listed days rest ++ ')' :: r = listed days' rest' ++ ')' :: r') :
    days = days' ∧ rest = rest' ∧ r = r' := by
  have closed {r : List Char} : EndsRun isIntegerChar (')' :: r) := endsRun_cons.2 rfl
  have going {r : List Char} : EndsRun isIntegerChar (',' :: r) := endsRun_cons.2 rfl
  unfold listed at h
  split_ifs at h <;> simp at h
  · obtain ⟨seconds, after⟩ := integer_append_inj closed closed h
    exact ⟨‹days = 0›.trans ‹days' = 0›.symm, seconds, List.tail_eq_of_cons_eq after⟩
  · obtain ⟨days, after⟩ := integer_append_inj closed closed h
    exact ⟨days, ‹rest = 0›.trans ‹rest' = 0›.symm, List.tail_eq_of_cons_eq after⟩
  · obtain ⟨-, after⟩ := integer_append_inj closed going h
    simp at after
  · obtain ⟨-, after⟩ := integer_append_inj going closed h
    simp at after
  · obtain ⟨days, after⟩ := integer_append_inj going going h
    obtain ⟨seconds, after⟩ := integer_append_inj closed closed (by simpa using after)
    exact ⟨days, seconds, List.tail_eq_of_cons_eq after⟩

theorem toList_shownOffset {seconds : Int} (nonzero : seconds ≠ 0) :
    (shownOffset seconds).toList = "datetime.timezone(datetime.timedelta(".toList ++
      (listed (seconds / 86400) (seconds % 86400) ++ "))".toList) := by
  unfold shownOffset listed
  rw [if_neg nonzero]
  dsimp only
  split_ifs
  · omega
  · simp
  · simp
  · simp [String.intercalate_cons_cons]

theorem shownOffset_append_inj {s t : Int}
    (h : (shownOffset s).toList ++ ')' :: r = (shownOffset t).toList ++ ')' :: r') :
    s = t ∧ r = r' := by
  by_cases utc : s = 0 <;> by_cases utc' : t = 0
  · rw [utc, utc'] at h
    exact ⟨utc.trans utc'.symm, List.tail_eq_of_cons_eq (List.append_cancel_left h)⟩
  · rw [utc, toList_shownOffset utc'] at h
    simp [shownOffset] at h
  · rw [utc', toList_shownOffset utc] at h
    simp [shownOffset] at h
  · rw [toList_shownOffset utc, toList_shownOffset utc', List.append_assoc, List.append_assoc,
      List.append_assoc, List.append_assoc] at h
    obtain ⟨days, rest, after⟩ := listed_append_inj (List.append_cancel_left h)
    refine ⟨by omega, ?_⟩
    simpa using after

def fineNumbers (t : Timestamp) : List Nat :=
  if t.microsecond ≠ 0 then [t.second, t.microsecond]
  else if t.second ≠ 0 then [t.second] else []

theorem eq_of_fineNumbers {t u : Timestamp} (h : t.fineNumbers = u.fineNumbers) :
    t.second = u.second ∧ t.microsecond = u.microsecond := by
  unfold fineNumbers at h
  split_ifs at h <;> simp_all

def shownZone (t : Timestamp) : List Char :=
  match t.offset with
  | some seconds => ", tzinfo=".toList ++ (shownOffset seconds).toList
  | none => []

theorem toList_shown (t : Timestamp) : t.shown.toList = "datetime.datetime(".toList ++
    (t.year.repr.toList ++
      (followed ((t.month :: t.day :: t.hour :: t.minute :: t.fineNumbers).map Nat.repr) ++
        (t.shownZone ++ [')']))) := by
  have numbers (ns : List Nat) (zone : List String) :
      (", ".intercalate ((t.year :: ns).map toString ++ zone)).toList =
        t.year.repr.toList ++ (followed (ns.map Nat.repr) ++ followed zone) := by
    rw [List.map_cons, List.cons_append, toList_intercalate_cons]
    simp [followed]
    rfl
  have whole : t.shown = "datetime.datetime(" ++ ", ".intercalate
      ((t.year :: t.month :: t.day :: t.hour :: t.minute :: t.fineNumbers).map toString ++
        match t.offset with
        | some seconds => ["tzinfo=" ++ shownOffset seconds]
        | none => []) ++ ")" := rfl
  rw [whole, String.toList_append, String.toList_append, numbers, shownZone]
  cases t.offset <;> simp

theorem endsNumbers_zone (t : Timestamp) (r : List Char) :
    EndsNumbers (t.shownZone ++ ([')'] ++ r)) := by
  unfold shownZone EndsNumbers
  cases t.offset with
  | none => simp [endsRun_cons]
  | some seconds =>
    refine ⟨endsRun_cons.2 rfl, fun rest h => ?_⟩
    obtain rfl : _ = rest := List.tail_eq_of_cons_eq (List.tail_eq_of_cons_eq h)
    exact endsRun_cons.2 rfl

theorem zone_append_inj {t u : Timestamp}
    (h : t.shownZone ++ ([')'] ++ r) = u.shownZone ++ ([')'] ++ r')) :
    t.offset = u.offset ∧ r = r' := by
  unfold shownZone at h
  cases here : t.offset <;> cases there : u.offset <;> simp [here, there] at h
  · exact ⟨rfl, h⟩
  · obtain ⟨rfl, after⟩ := shownOffset_append_inj h
    exact ⟨rfl, after⟩

theorem shown_append_inj {t u : Timestamp} (h : t.shown.toList ++ r = u.shown.toList ++ r') :
    t = u ∧ r = r' := by
  rw [toList_shown, toList_shown] at h
  simp only [List.append_assoc] at h
  obtain ⟨years, h⟩ := natural_append_inj (endsRun_followed _ (endsNumbers_zone t r).1)
    (endsRun_followed _ (endsNumbers_zone u r').1) (List.append_cancel_left h)
  obtain ⟨numbers, h⟩ := followed_append_inj (endsNumbers_zone t r) (endsNumbers_zone u r') h
  obtain ⟨offsets, after⟩ := zone_append_inj h
  simp only [List.cons.injEq] at numbers
  obtain ⟨months, days, hours, minutes, fine⟩ := numbers
  obtain ⟨seconds, microseconds⟩ := eq_of_fineNumbers fine
  refine ⟨?_, after⟩
  cases t
  cases u
  simp_all

theorem count_colon_padded (width n : Nat) : (padded width n).toList.count ':' = 0 := by
  refine List.count_eq_zero.2 fun colon => ?_
  rw [padded, String.toList_ofList] at colon
  have digits := areDigits_append.2 ⟨areDigits_zeros (width - (Nat.toDigits 10 n).length),
    areDigits_toDigits n⟩
  cases digits ':' colon

theorem text_ne_of_offset {t u : Timestamp} {seconds : Int} (bare : t.offset = none)
    (offset : u.offset = some seconds) : t.text " " ≠ u.text " " := by
  have fraction (n : Nat) :
      (if n = 0 then "" else "." ++ padded 6 n).toList.count ':' = 0 := by
    split <;> simp [count_colon_padded]
  have colons : 0 < (offsetText seconds).toList.count ':' := by
    unfold offsetText
    dsimp only
    split <;> simp [List.count_append]
  intro same
  have counts := congrArg (fun s : String => s.toList.count ':') same
  simp [text, List.count_append, count_colon_padded, fraction, bare, offset] at counts
  omega

end Timestamp

theorem ObjectId.text_inj {i j : ObjectId} (h : i.text = j.text) : i = j := by
  have digits := congrArg (fun s : String => hexValue s.toList) h
  simp only [ObjectId.text, String.toList_ofList, hexValue_hex] at digits
  cases i
  cases j
  exact congrArg _ digits

namespace Value

variable {a b v : Value}

mutual

/-- Whether the value is made of data, with doubles that are numbers. -/
def isLegible : Value → Bool
  | .null | .bool _ | .int _ | .str _ | .bytes _ | .timestamp _ | .objectId _ => true
  | .double x => x.isExact
  | .list items => areLegible items
  | .doc fields => areLegibleFields fields
  | _ => false

def areLegible : List Value → Bool
  | [] => true
  | v :: rest => v.isLegible && areLegible rest

def areLegibleFields : List (String × Value) → Bool
  | [] => true
  | (_, v) :: rest => v.isLegible && areLegibleFields rest

end

section Shown

variable {items : List Value} {fields : Document}

@[simp] theorem shown_null : null.shown = "None" := rfl
@[simp] theorem shown_bool (b : Bool) : (bool b).shown = if b then "True" else "False" := rfl
@[simp] theorem shown_int (n : Int) : (int n).shown = n.repr := rfl
@[simp] theorem shown_double (x : Double) :
    (double x).shown = DoubleFormat.standard.text x := rfl
@[simp] theorem shown_str (s : String) : (str s).shown = quoted s := rfl
@[simp] theorem shown_bytes (octets : List UInt8) : (bytes octets).shown = quotedBytes octets := rfl
@[simp] theorem shown_timestamp (t : Timestamp) : (timestamp t).shown = t.shown := rfl
@[simp] theorem shown_objectId (id : ObjectId) :
    (objectId id).shown = "ObjectId(" ++ quoted id.text ++ ")" := rfl
@[simp] theorem shown_tuple : (tuple items).shown = parenthesized (shownItems items) := rfl
@[simp] theorem shown_list : (list items).shown = bracketed (shownItems items) := rfl
@[simp] theorem shown_doc : (doc fields).shown = braced (shownFields fields) := rfl
@[simp] theorem shownItems_nil : shownItems [] = [] := rfl
@[simp] theorem shownItems_cons : shownItems (v :: items) = v.shown :: shownItems items := rfl
@[simp] theorem shownFields_nil : shownFields [] = [] := rfl
@[simp] theorem shownFields_cons (key : String) :
    shownFields ((key, v) :: fields) = (quoted key ++ ": " ++ v.shown) :: shownFields fields := rfl

end Shown

/-! ## Forms of texts -/

inductive Form
  | word
  | quoted
  | quotedBytes
  | timestamp
  | objectId
  | bracketed
  | braced
  | close
  deriving DecidableEq

def form : Value → Form
  | .str _ => .quoted
  | .bytes _ => .quotedBytes
  | .timestamp _ => .timestamp
  | .objectId _ => .objectId
  | .list _ => .bracketed
  | .doc _ => .braced
  | _ => .word

def formOf (c : Char) : Form :=
  if c = '\x27' ∨ c = '\x22' then .quoted
  else if c = 'b' then .quotedBytes
  else if c = 'd' then .timestamp
  else if c = 'O' then .objectId
  else if c = '[' then .bracketed
  else if c = '\x7b' then .braced
  else if c = ']' ∨ c = '\x7d' then .close
  else .word

theorem formOf_quote {quote : Char} (marks : IsQuote quote) : formOf quote = .quoted := if_pos marks

theorem formOf_numeral {c : Char} (numeral : Double.IsNumeralChar c) : formOf c = .word := by
  have plain : c ≠ '\x27' ∧ c ≠ '\x22' ∧ c ≠ 'b' ∧ c ≠ 'd' ∧ c ≠ 'O' ∧ c ≠ '[' ∧ c ≠ '\x7b' ∧
      c ≠ ']' ∧ c ≠ '\x7d' := by
    refine ⟨?_, ?_, ?_, ?_, ?_, ?_, ?_, ?_, ?_⟩ <;> rintro rfl <;> revert numeral <;>
      unfold Double.IsNumeralChar <;> decide
  simp [formOf, plain]

theorem isNumeralChar_integer {n : Int} {c : Char} (mem : c ∈ n.repr.toList) :
    Double.IsNumeralChar c := by
  rcases Bool.or_eq_true _ _ ▸ mem_integer c mem with digit | minus
  · exact .inl digit
  · rw [eq_of_beq minus]
    exact .inr (by decide)

theorem exists_cons_of_mem {cs : List Char} {c : Char} {p : Char → Prop} (mem : c ∈ cs)
    (all : ∀ d ∈ cs, p d) : ∃ d rest, cs = d :: rest ∧ p d := by
  cases cs with
  | nil => cases mem
  | cons d rest => exact ⟨d, rest, rfl, all d List.mem_cons_self⟩

theorem exists_mem_integer (n : Int) : ∃ c, c ∈ n.repr.toList := by
  rw [toList_integer]
  refine List.exists_mem_of_ne_nil _ fun none => ?_
  exact Nat.toDigits_ne_nil (List.append_eq_nil_iff.1 none).2

theorem shown_cons (legible : v.isLegible = true) :
    ∃ c rest, v.shown.toList = c :: rest ∧ formOf c = v.form := by
  have numeral {cs : List Char} {c : Char} (mem : c ∈ cs)
      (all : ∀ d ∈ cs, Double.IsNumeralChar d) : ∃ d rest, cs = d :: rest ∧ formOf d = .word := by
    obtain ⟨d, rest, split, first⟩ := exists_cons_of_mem mem all
    exact ⟨d, rest, split, formOf_numeral first⟩
  cases v with
  | null => exact ⟨'N', ['o', 'n', 'e'], by simp, (by decide : formOf 'N' = .word)⟩
  | bool x =>
    cases x with
    | false => exact ⟨'F', ['a', 'l', 's', 'e'], by simp, (by decide : formOf 'F' = .word)⟩
    | true => exact ⟨'T', ['r', 'u', 'e'], by simp, (by decide : formOf 'T' = .word)⟩
  | int n =>
    obtain ⟨c, mem⟩ := exists_mem_integer n
    exact numeral mem fun d mem => isNumeralChar_integer mem
  | double x =>
    obtain ⟨c, mem, -⟩ := DoubleFormat.exists_mark legible
    exact numeral mem fun d mem => DoubleFormat.mem_text legible mem
  | str s => exact ⟨_, _, String.toList_ofList, formOf_quote (isQuote_quoteFor _)⟩
  | bytes octets =>
    exact ⟨'b', _, String.toList_ofList, (by decide : formOf 'b' = .quotedBytes)⟩
  | timestamp t =>
    exact ⟨'d', _, by simp [Timestamp.toList_shown]; rfl, (by decide : formOf 'd' = .timestamp)⟩
  | objectId id => exact ⟨'O', _, by simp; rfl, (by decide : formOf 'O' = .objectId)⟩
  | list items =>
    exact ⟨'[', _, by simp [bracketed]; rfl, (by decide : formOf '[' = .bracketed)⟩
  | doc fields =>
    exact ⟨'\x7b', _, by simp [braced]; rfl, (by decide : formOf '\x7b' = .braced)⟩
  | _ => cases legible

theorem form_eq_of_append (left : a.isLegible = true) (right : b.isLegible = true)
    (h : a.shown.toList ++ r = b.shown.toList ++ r') : a.form = b.form := by
  obtain ⟨c, rest, here, form⟩ := shown_cons left
  obtain ⟨d, rest', there, form'⟩ := shown_cons right
  rw [here, there] at h
  rw [← form, ← form', List.head_eq_of_cons_eq h]

/-! ## Words -/

def inWord (c : Char) : Bool := !(c ∈ [',', ')', ']', '\x7d'])

theorem inWord_of_numeral {c : Char} (numeral : Double.IsNumeralChar c) : inWord c = true := by
  have plain : c ∉ [',', ')', ']', '\x7d'] := by
    intro mem
    simp only [List.mem_cons, List.not_mem_nil, or_false] at mem
    rcases mem with rfl | rfl | rfl | rfl <;> revert numeral <;> unfold Double.IsNumeralChar <;>
      decide
  simpa [inWord] using plain

theorem mem_number (legible : v.isLegible = true) (number : v.rank = 2) :
    ∀ c ∈ v.shown.toList, Double.IsNumeralChar c := by
  cases v with
  | int n => exact fun c mem => isNumeralChar_integer mem
  | double x => exact fun c mem => DoubleFormat.mem_text legible mem
  | _ => cases number

theorem word_cases (legible : v.isLegible = true) (word : v.form = .word) :
    v.rank = 2 ∨ v = .null ∨ v = .bool true ∨ v = .bool false := by
  cases v with
  | bool x => cases x <;> simp
  | null | int | double => simp [rank]
  | str | bytes | timestamp | objectId | list | doc => cases word
  | _ => cases legible

theorem mem_word (legible : v.isLegible = true) (word : v.form = .word) :
    ∀ c ∈ v.shown.toList, inWord c = true := by
  rcases word_cases legible word with number | rfl | rfl | rfl
  · exact fun c mem => inWord_of_numeral (mem_number legible number c mem)
  all_goals simp [inWord]

theorem ne_name (legible : a.isLegible = true) (number : a.rank = 2)
    (name : b = .null ∨ b = .bool true ∨ b = .bool false) : a.shown ≠ b.shown := by
  intro same
  have all := mem_number legible number
  rw [same] at all
  have marks : ¬Double.IsNumeralChar 'o' ∧ ¬Double.IsNumeralChar 'r' ∧
      ¬Double.IsNumeralChar 'a' := by
    unfold Double.IsNumeralChar
    decide
  rcases name with rfl | rfl | rfl
  · exact marks.1 (all 'o' (by simp))
  · exact marks.2.1 (all 'r' (by simp))
  · exact marks.2.2 (all 'a' (by simp))

theorem integer_ne_double {n : Int} {x : Double} (exact : x.isExact = true) :
    n.repr ≠ DoubleFormat.standard.text x := by
  intro same
  obtain ⟨c, mem, mark⟩ := DoubleFormat.exists_mark exact
  have digit := mem_integer c (same ▸ mem)
  rcases mark with rfl | rfl | rfl <;> cases digit

theorem number_inj (left : a.isLegible = true) (right : b.isLegible = true)
    (here : a.rank = 2) (there : b.rank = 2) (h : a.shown = b.shown) : a = b := by
  cases a with
  | int m =>
    cases b with
    | int n => rw [integer_inj h]
    | double y => exact absurd h (integer_ne_double right)
    | _ => cases there
  | double x =>
    cases b with
    | int n => exact absurd h.symm (integer_ne_double left)
    | double y => rw [DoubleFormat.text_injOn left right h]
    | _ => cases there
  | _ => cases here

theorem word_inj (left : a.isLegible = true) (right : b.isLegible = true)
    (here : a.form = .word) (there : b.form = .word) (h : a.shown = b.shown) : a = b := by
  rcases word_cases left here with number | name <;>
    rcases word_cases right there with number' | name'
  · exact number_inj left right number number' h
  · exact absurd h (ne_name left number name')
  · exact absurd h.symm (ne_name right number' name)
  · rcases name with rfl | rfl | rfl <;> rcases name' with rfl | rfl | rfl <;>
      first | rfl | exact absurd h (by simp)

/-! ## Containers -/

def Begins (s : String) : Prop := ∃ c rest, s.toList = c :: rest ∧ formOf c ≠ .close

theorem begins_shownItems : ∀ {items : List Value}, areLegible items = true →
    ∀ s ∈ shownItems items, Begins s
  | v :: rest, legible, s, mem => by
    rw [areLegible, Bool.and_eq_true] at legible
    rcases List.mem_cons.1 mem with rfl | mem
    · obtain ⟨c, rest, split, form⟩ := shown_cons legible.1
      refine ⟨c, rest, split, ?_⟩
      rw [form]
      cases v <;> exact nofun
    · exact begins_shownItems legible.2 s mem

theorem begins_shownFields {fields : Document} : ∀ s ∈ shownFields fields, Begins s := by
  induction fields with
  | nil => exact fun s mem => absurd mem List.not_mem_nil
  | cons f rest ih =>
    intro s mem
    obtain ⟨key, v⟩ := f
    rcases List.mem_cons.1 mem with rfl | mem
    · have split := String.toList_append (s := quoted key) (t := ": " ++ v.shown)
      rw [← String.append_assoc, quoted, String.toList_ofList] at split
      refine ⟨_, _, split, ?_⟩
      rw [formOf_quote (isQuote_quoteFor _)]
      decide
    · exact ih s mem

theorem followed_of_intercalate {as bs : List String} {close : Char}
    (ends : formOf close = .close) (left : ∀ s ∈ as, Begins s) (right : ∀ s ∈ bs, Begins s)
    (h : (", ".intercalate as).toList ++ close :: r = (", ".intercalate bs).toList ++ close :: r') :
    followed as ++ close :: r = followed bs ++ close :: r' := by
  have apart {s : String} {more more' : List Char} (begins : Begins s) :
      s.toList ++ more ≠ close :: more' := by
    intro same
    obtain ⟨c, rest, split, other⟩ := begins
    rw [split] at same
    exact other (List.head_eq_of_cons_eq same ▸ ends)
  cases as with
  | nil =>
    cases bs with
    | nil => exact h
    | cons b bs =>
      rw [toList_intercalate_cons, List.append_assoc] at h
      exact absurd h.symm (apart (right b List.mem_cons_self))
  | cons a as =>
    cases bs with
    | nil =>
      rw [toList_intercalate_cons, List.append_assoc] at h
      exact absurd h (apart (left a List.mem_cons_self))
    | cons b bs =>
      rw [toList_intercalate_cons, toList_intercalate_cons] at h
      exact congrArg (',' :: ' ' :: ·) h

theorem endsWord_followed {close : Char} (ends : inWord close = false) (items : List String)
    (r : List Char) : EndsRun inWord (followed items ++ close :: r) := by
  cases items with
  | nil => exact endsRun_cons.2 ends
  | cons item rest => exact endsRun_cons.2 rfl

theorem shown_append_inj_of_flat (left : a.isLegible = true) (right : b.isLegible = true)
    (flat : a.rank ≠ 4 ∧ a.rank ≠ 5) (ends : EndsRun inWord r) (ends' : EndsRun inWord r')
    (h : a.shown.toList ++ r = b.shown.toList ++ r') : a = b ∧ r = r' := by
  have form := form_eq_of_append left right h
  have words (word : a.form = .word) : a = b ∧ r = r' := by
    have word' := form.symm.trans word
    obtain ⟨texts, after⟩ := run_append_inj (mem_word left word) (mem_word right word') ends ends' h
    exact ⟨word_inj left right word word' (String.toList_inj.1 texts), after⟩
  cases a with
  | str s =>
    cases b with
    | str t =>
      obtain ⟨rfl, after⟩ := quoted_append_inj h
      exact ⟨rfl, after⟩
    | _ => cases form
  | bytes octets =>
    cases b with
    | bytes others =>
      obtain ⟨rfl, after⟩ := quotedBytes_append_inj h
      exact ⟨rfl, after⟩
    | _ => cases form
  | timestamp t =>
    cases b with
    | timestamp u =>
      obtain ⟨rfl, after⟩ := Timestamp.shown_append_inj h
      exact ⟨rfl, after⟩
    | _ => cases form
  | objectId i =>
    cases b with
    | objectId j =>
      simp only [shown_objectId, String.toList_append, List.append_assoc] at h
      obtain ⟨digits, after⟩ := quoted_append_inj (List.append_cancel_left h)
      exact ⟨congrArg _ (ObjectId.text_inj digits), List.append_cancel_left after⟩
    | _ => cases form
  | list | doc => simp [rank] at flat
  | _ => exact words rfl

mutual

/-- A value and what follows it can be read off. -/
theorem shown_append_inj : ∀ {a : Value}, a.isLegible = true → ∀ (b : Value) (r r' : List Char),
    b.isLegible = true → EndsRun inWord r → EndsRun inWord r' →
    a.shown.toList ++ r = b.shown.toList ++ r' → a = b ∧ r = r'
  | .list as, left => fun b r r' right _ _ h => by
    have form := form_eq_of_append left right h
    cases b with
    | list bs =>
      have rows : followed (shownItems as) ++ ']' :: r = followed (shownItems bs) ++ ']' :: r' :=
        followed_of_intercalate (by decide) (begins_shownItems left) (begins_shownItems right)
          (by simpa [bracketed] using h)
      obtain ⟨rfl, after⟩ := shownItems_append_inj left _ _ _ right rows
      exact ⟨rfl, after⟩
    | _ => cases form
  | .doc as, left => fun b r r' right _ _ h => by
    have form := form_eq_of_append left right h
    cases b with
    | doc bs =>
      have rows : followed (shownFields as) ++ '\x7d' :: r =
          followed (shownFields bs) ++ '\x7d' :: r' :=
        followed_of_intercalate (by decide) begins_shownFields begins_shownFields
          (by simpa [braced] using h)
      obtain ⟨rfl, after⟩ := shownFields_append_inj left _ _ _ right rows
      exact ⟨rfl, after⟩
    | _ => cases form
  | .null, left | .bool _, left | .int _, left | .double _, left | .str _, left | .bytes _, left
  | .timestamp _, left | .objectId _, left =>
    fun _ _ _ right ends ends' h =>
      shown_append_inj_of_flat left right (by simp [rank]) ends ends' h

theorem shownItems_append_inj : ∀ {as : List Value}, areLegible as = true →
    ∀ (bs : List Value) (r r' : List Char), areLegible bs = true →
    followed (shownItems as) ++ ']' :: r = followed (shownItems bs) ++ ']' :: r' →
    as = bs ∧ r = r'
  | [], _ => fun bs r r' _ h => by
    cases bs with
    | nil => exact ⟨rfl, List.tail_eq_of_cons_eq h⟩
    | cons b bs => exact absurd (List.head_eq_of_cons_eq h) (by decide)
  | a :: as, left => fun bs r r' right h => by
    cases bs with
    | nil => exact absurd (List.head_eq_of_cons_eq h) (by decide)
    | cons b bs =>
      rw [areLegible, Bool.and_eq_true] at left right
      simp only [shownItems_cons, followed_cons, List.cons_append, List.append_assoc,
        List.cons.injEq, true_and] at h
      obtain ⟨rfl, later⟩ := shown_append_inj left.1 _ _ _ right.1
        (endsWord_followed (by decide) _ _) (endsWord_followed (by decide) _ _) h
      obtain ⟨rfl, after⟩ := shownItems_append_inj left.2 _ _ _ right.2 later
      exact ⟨rfl, after⟩

theorem shownFields_append_inj : ∀ {as : Document}, areLegibleFields as = true →
    ∀ (bs : Document) (r r' : List Char), areLegibleFields bs = true →
    followed (shownFields as) ++ '\x7d' :: r = followed (shownFields bs) ++ '\x7d' :: r' →
    as = bs ∧ r = r'
  | [], _ => fun bs r r' _ h => by
    cases bs with
    | nil => exact ⟨rfl, List.tail_eq_of_cons_eq h⟩
    | cons b bs => exact absurd (List.head_eq_of_cons_eq h) (by decide)
  | (k, a) :: as, left => fun bs r r' right h => by
    cases bs with
    | nil => exact absurd (List.head_eq_of_cons_eq h) (by decide)
    | cons f bs =>
      obtain ⟨l, b⟩ := f
      rw [areLegibleFields, Bool.and_eq_true] at left right
      simp only [shownFields_cons, followed_cons, String.toList_append, List.cons_append,
        List.append_assoc, List.cons.injEq, true_and] at h
      obtain ⟨rfl, value⟩ := quoted_append_inj h
      obtain ⟨rfl, later⟩ := shown_append_inj left.1 _ _ _ right.1
        (endsWord_followed (by decide) _ _) (endsWord_followed (by decide) _ _) (List.append_cancel_left value)
      obtain ⟨rfl, after⟩ := shownFields_append_inj left.2 _ _ _ right.2 later
      exact ⟨rfl, after⟩

end

end Value
end Docbase
