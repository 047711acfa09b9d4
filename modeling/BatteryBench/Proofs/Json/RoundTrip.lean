import BatteryBench.Proofs.Json.Literals

/-!
# Writing and reading JSON

Whatever value is written, reading the text gives it back (`Json.ofText?_text`), provided every
string in it is a text (`Json.isWritable`): a string that is none has no literal of its own. Numbers
need not be finite or fit anywhere, and members may stand in any order and be repeated.

The reader bounds the nesting by fuel. A part of a value that is shorter than the fuel is read as
itself with what follows it left over, and this is what the induction on the fuel carries
(`Json.ReadsBack`): a value, the elements of a list up to its bracket, and the members of an object
up to its brace.
-/

namespace BatteryBench

namespace Json

mutual

/-- Whether every string of a value is a text. -/
def isWritable : Json → Bool
  | null | bool _ | number _ => true
  | string s => s.isSome
  | array elements => elementsAreWritable elements
  | object members => membersAreWritable members

/-- Whether every string of the values of a list is a text. -/
def elementsAreWritable : List Json → Bool
  | [] => true
  | v :: vs => isWritable v && elementsAreWritable vs

/-- Whether every name and every string of some members is a text. -/
def membersAreWritable : List (Option Text × Json) → Bool
  | [] => true
  | (name, v) :: members => name.isSome && isWritable v && membersAreWritable members

end

/-- What can be kept as it is can be written. -/
theorem isWritable_of_isPlain {depth : Nat} {v : Json} (h : v.isPlain depth) : v.isWritable := by
  induction depth generalizing v with
  | zero =>
    cases v with
    | null | bool _ | number _ => rfl
    | string s => exact h
    | array elements | object members => cases h
  | succ depth ih =>
    cases v with
    | null | bool _ | number _ => rfl
    | string s => exact h
    | array elements =>
      replace h : elementsArePlain depth elements := h
      show elementsAreWritable elements
      induction elements with
      | nil => rfl
      | cons v vs ihs =>
        rw [elementsArePlain, Bool.and_eq_true] at h
        rw [elementsAreWritable, Bool.and_eq_true]
        exact ⟨ih h.1, ihs h.2⟩
    | object members =>
      replace h : membersArePlain depth members := h
      show membersAreWritable members
      induction members with
      | nil => rfl
      | cons m ms ihs =>
        rw [membersArePlain, Bool.and_eq_true, Bool.and_eq_true] at h
        rw [membersAreWritable, Bool.and_eq_true, Bool.and_eq_true]
        exact ⟨⟨h.1.1, ih h.1.2⟩, ihs h.2⟩

theorem elementsAreWritable_iff {vs : List Json} :
    elementsAreWritable vs ↔ ∀ v ∈ vs, v.isWritable := by
  induction vs with
  | nil => simp [elementsAreWritable]
  | cons v vs ih => rw [elementsAreWritable, Bool.and_eq_true, ih, List.forall_mem_cons]

/-- Members can be written if each of them can. -/
theorem membersAreWritable_iff {ms : List (Option Text × Json)} :
    membersAreWritable ms ↔ ∀ m ∈ ms, m.1.isSome ∧ m.2.isWritable := by
  induction ms with
  | nil => simp [membersAreWritable]
  | cons m ms ih =>
    obtain ⟨name, v⟩ := m
    rw [membersAreWritable, Bool.and_eq_true, Bool.and_eq_true, ih, List.forall_mem_cons]

/-! ### How values start -/

theorem skipBlanks_cons {c : Char} (h : isBlank c = false) (t : Text) :
    skipBlanks (c :: t) = c :: t :=
  List.dropWhile_cons_of_neg (by simp [h])

/-- A number starts with a digit or a minus sign. -/
theorem exists_numberText_cons (n : JsonNumber) :
    ∃ c t, numberText n = c :: t ∧ (c.isDigit ∨ c = '-') := by
  have hsigned : ∀ (negative : Bool) (n : Nat) (rest : Text),
      ∃ c t, (if negative then ['-'] else []) ++ (decimal n ++ rest) = c :: t ∧
        (c.isDigit ∨ c = '-') := by
    intro negative n rest
    cases negative with
    | true => exact ⟨'-', _, rfl, .inr rfl⟩
    | false =>
      obtain ⟨d, ds, hd, hdigit⟩ := exists_decimal_cons n
      exact ⟨d, ds ++ rest, by rw [hd]; rfl, .inl hdigit⟩
  cases n with
  | integer negative magnitude =>
    have h := hsigned negative magnitude []
    rwa [List.append_nil] at h
  | scientific negative whole fraction exponent =>
    rw [numberText, List.append_assoc, List.append_assoc]
    exact hsigned negative whole _

/-- What a number starts with starts nothing else. -/
theorem ne_of_startsNumber {c d : Char} (hc : c.isDigit ∨ c = '-') (hdigit : d.isDigit = false)
    (hminus : d ≠ '-') : c ≠ d := by
  rintro rfl
  rcases hc with hc | hc
  · rw [hc] at hdigit
    cases hdigit
  · exact hminus hc

theorem isBlank_of_startsNumber {c : Char} (hc : c.isDigit ∨ c = '-') : isBlank c = false := by
  have hne : ∀ d : Char, d.isDigit = false → d ≠ '-' → c ≠ d := fun _ ↦ ne_of_startsNumber hc
  simp [isBlank, hne ' ' (by decide) (by decide), hne '\n' (by decide) (by decide),
    hne '\t' (by decide) (by decide), hne '\r' (by decide) (by decide)]

/-- No value starts with a blank or a closing bracket. -/
theorem exists_text_cons (v : Json) :
    ∃ c t, text v = c :: t ∧ isBlank c = false ∧ c ≠ ']' := by
  cases v with
  | null => exact ⟨'n', _, rfl, by decide, by decide⟩
  | bool b => cases b with
    | true => exact ⟨'t', _, rfl, by decide, by decide⟩
    | false => exact ⟨'f', _, rfl, by decide, by decide⟩
  | number n =>
    obtain ⟨c, t, hn, hc⟩ := exists_numberText_cons n
    exact ⟨c, t, hn, isBlank_of_startsNumber hc, ne_of_startsNumber hc (by decide) (by decide)⟩
  | string s => exact ⟨'"', _, rfl, by decide, by decide⟩
  | array elements => exact ⟨'[', _, rfl, by decide, by decide⟩
  | object members => exact ⟨'\x7b', _, rfl, by decide, by decide⟩

theorem elementsText_cons_cons (v w : Json) (vs : List Json) :
    elementsText (v :: w :: vs) = text v ++ ',' :: elementsText (w :: vs) := rfl

theorem membersText_cons_cons (m : Option Text × Json) (m' : Option Text × Json)
    (ms : List (Option Text × Json)) :
    membersText (m :: m' :: ms) = membersText [m] ++ ',' :: membersText (m' :: ms) := by
  obtain ⟨name, v⟩ := m
  rw [membersText, membersText, List.append_assoc, List.cons_append]
  exact nofun

theorem membersText_singleton_append (name : Text) (v : Json) (rest : Text) :
    membersText [(some name, v)] ++ rest =
      '"' :: (name.flatMap escapeChar ++ '"' :: ':' :: (text v ++ rest)) := by
  simp [membersText, stringText]

/-! ### One step of the reader -/

variable {fuel : Nat}

theorem takeValue?_number {c : Char} (hc : c.isDigit ∨ c = '-') (t : Text) :
    takeValue? (fuel + 1) (c :: t) =
      (takeNumber? (c :: t)).map fun r ↦ (number r.1, r.2) := by
  have hne : ∀ d : Char, d.isDigit = false → d ≠ '-' → c ≠ d := fun _ ↦ ne_of_startsNumber hc
  rw [takeValue?, skipBlanks_cons (isBlank_of_startsNumber hc)]
  split
  · next heq => exact absurd (List.cons.inj heq).1 (hne _ (by decide) (by decide))
  · next heq => exact absurd (List.cons.inj heq).1 (hne _ (by decide) (by decide))
  · next heq => exact absurd (List.cons.inj heq).1 (hne _ (by decide) (by decide))
  · next heq => exact absurd (List.cons.inj heq).1 (hne _ (by decide) (by decide))
  · next heq => exact absurd (List.cons.inj heq).1 (hne _ (by decide) (by decide))
  · next heq => exact absurd (List.cons.inj heq).1 (hne _ (by decide) (by decide))
  · rfl

theorem takeValue?_string (s rest : Text) :
    takeValue? (fuel + 1) (stringText s ++ rest) = some (string (some s), rest) := by
  rw [stringText, List.cons_append, List.append_assoc, List.singleton_append]
  show (takeString? (s.flatMap escapeChar ++ '"' :: rest)).map _ = _
  rw [takeString?_flatMap_escapeChar, Option.map_some]

theorem takeValue?_array {c : Char} (hblank : isBlank c = false) (hclose : c ≠ ']') (t : Text) :
    takeValue? (fuel + 1) ('[' :: c :: t) =
      (takeElements? fuel (c :: t)).map fun r ↦ (array r.1, r.2) := by
  have hbracket : isBlank '[' = false := by decide
  simp only [takeValue?, skipBlanks_cons hbracket, skipBlanks_cons hblank]
  split
  · next heq => exact absurd (List.cons.inj heq).1 hclose
  · rfl

theorem takeValue?_object (t : Text) :
    takeValue? (fuel + 1) ('\x7b' :: '"' :: t) =
      (takeMembers? fuel ('"' :: t)).map fun r ↦ (object r.1, r.2) := rfl

/-! ### Reading back -/

/-- That the reader reads back what is shorter than its fuel, with the bracket or brace that closes
it. -/
structure ReadsBack (fuel : Nat) : Prop where
  /-- A value is read as itself. -/
  value : ∀ (v : Json) (rest : Text), v.isWritable → (text v).length < fuel → EndsNumber rest →
    takeValue? fuel (text v ++ rest) = some (v, rest)
  /-- So are elements, up to the bracket. -/
  elements : ∀ (vs : List Json) (rest : Text), vs ≠ [] → elementsAreWritable vs →
    (elementsText vs).length + 1 < fuel →
    takeElements? fuel (elementsText vs ++ ']' :: rest) = some (vs, rest)
  /-- So are members, up to the brace. -/
  members : ∀ (ms : List (Option Text × Json)) (rest : Text), ms ≠ [] → membersAreWritable ms →
    (membersText ms).length + 1 < fuel →
    takeMembers? fuel (membersText ms ++ '\x7d' :: rest) = some (ms, rest)

theorem readsBack_zero : ReadsBack 0 :=
  ⟨fun _ _ _ h ↦ absurd h (Nat.not_lt_zero _), fun _ _ _ _ h ↦ absurd h (Nat.not_lt_zero _),
    fun _ _ _ _ h ↦ absurd h (Nat.not_lt_zero _)⟩

namespace ReadsBack

variable (h : ReadsBack fuel)
include h

theorem succ_value (v : Json) (rest : Text) (hv : v.isWritable)
    (hlength : (text v).length < fuel + 1) (hrest : EndsNumber rest) :
    takeValue? (fuel + 1) (text v ++ rest) = some (v, rest) := by
  cases v with
  | null => rfl
  | bool b => cases b <;> rfl
  | number n =>
    obtain ⟨c, t, hn, hc⟩ := exists_numberText_cons n
    have hnumber := takeNumber?_numberText n hrest
    rw [text, hn, List.cons_append] at *
    rw [takeValue?_number hc, hnumber, Option.map_some]
  | string s =>
    obtain ⟨s, rfl⟩ := Option.isSome_iff_exists.mp hv
    exact takeValue?_string s rest
  | array elements =>
    cases elements with
    | nil => rfl
    | cons v vs =>
      have hall := h.elements (v :: vs) rest (List.cons_ne_nil _ _) hv (by
        rw [text, List.length_cons, List.length_append, List.length_singleton] at hlength
        omega)
      obtain ⟨c, t, hc, hblank, hclose⟩ := exists_text_cons v
      obtain ⟨u, hu⟩ : ∃ u, elementsText (v :: vs) = c :: u := by
        cases vs with
        | nil => exact ⟨t, hc⟩
        | cons w ws => exact ⟨_, by rw [elementsText_cons_cons, hc]; rfl⟩
      rw [text, List.cons_append, List.append_assoc, List.singleton_append, hu, List.cons_append,
        takeValue?_array hblank hclose, ← List.cons_append, ← hu, hall, Option.map_some]
  | object members =>
    cases members with
    | nil => rfl
    | cons m ms =>
      have hall := h.members (m :: ms) rest (List.cons_ne_nil _ _) hv (by
        rw [text, List.length_cons, List.length_append, List.length_singleton] at hlength
        omega)
      obtain ⟨u, hu⟩ : ∃ u, membersText (m :: ms) = '"' :: u := by
        cases ms with
        | nil => exact ⟨_, rfl⟩
        | cons m' ms => exact ⟨_, rfl⟩
      rw [text, List.cons_append, List.append_assoc, List.singleton_append, hu, List.cons_append,
        takeValue?_object, ← List.cons_append, ← hu, hall, Option.map_some]

/-- An element is read, and the list goes on behind a comma. -/
theorem takeElements?_cons {v : Json} {rest : Text} (hv : v.isWritable)
    (hlength : (text v).length < fuel) :
    takeElements? (fuel + 1) (text v ++ ',' :: rest) =
      (takeElements? fuel rest).map fun r ↦ (v :: r.1, r.2) := by
  have hend := endsNumber_cons (c := ',') (by decide) (by decide) (by decide) (by decide) rest
  have hcomma : isBlank ',' = false := by decide
  simp only [takeElements?, h.value v _ hv hlength hend, skipBlanks_cons hcomma]

/-- The last element is read up to the bracket. -/
theorem takeElements?_last {v : Json} {rest : Text} (hv : v.isWritable)
    (hlength : (text v).length < fuel) :
    takeElements? (fuel + 1) (text v ++ ']' :: rest) = some ([v], rest) := by
  have hend := endsNumber_cons (c := ']') (by decide) (by decide) (by decide) (by decide) rest
  have hbracket : isBlank ']' = false := by decide
  simp only [takeElements?, h.value v _ hv hlength hend, skipBlanks_cons hbracket]

theorem succ_elements (vs : List Json) (rest : Text) (hne : vs ≠ [])
    (hvs : elementsAreWritable vs) (hlength : (elementsText vs).length + 1 < fuel + 1) :
    takeElements? (fuel + 1) (elementsText vs ++ ']' :: rest) = some (vs, rest) := by
  obtain ⟨v, vs, rfl⟩ := List.exists_cons_of_ne_nil hne
  rw [elementsAreWritable, Bool.and_eq_true] at hvs
  cases vs with
  | nil => exact h.takeElements?_last hvs.1 (Nat.lt_of_succ_lt_succ hlength)
  | cons w vs =>
    rw [elementsText_cons_cons, List.length_append, List.length_cons] at hlength
    have hothers := h.elements (w :: vs) rest (List.cons_ne_nil _ _) hvs.2 (by omega)
    rw [elementsText_cons_cons, List.append_assoc, List.cons_append,
      h.takeElements?_cons hvs.1 (by omega), hothers, Option.map_some]

/-- A member is read, and the object goes on behind a comma. -/
theorem takeMembers?_cons {name : Text} {v : Json} {rest : Text} (hv : v.isWritable)
    (hlength : (text v).length < fuel) :
    takeMembers? (fuel + 1) (membersText [(some name, v)] ++ ',' :: rest) =
      (takeMembers? fuel rest).map fun r ↦ ((some name, v) :: r.1, r.2) := by
  have hend := endsNumber_cons (c := ',') (by decide) (by decide) (by decide) (by decide) rest
  have hquote : isBlank '"' = false := by decide
  have hcolon : isBlank ':' = false := by decide
  have hcomma : isBlank ',' = false := by decide
  simp only [membersText_singleton_append, takeMembers?, skipBlanks_cons hquote,
    takeString?_flatMap_escapeChar, skipBlanks_cons hcolon, h.value v _ hv hlength hend,
    skipBlanks_cons hcomma]

/-- The last member is read up to the brace. -/
theorem takeMembers?_last {name : Text} {v : Json} {rest : Text} (hv : v.isWritable)
    (hlength : (text v).length < fuel) :
    takeMembers? (fuel + 1) (membersText [(some name, v)] ++ '\x7d' :: rest) =
      some ([(some name, v)], rest) := by
  have hend := endsNumber_cons (c := '\x7d') (by decide) (by decide) (by decide) (by decide) rest
  have hquote : isBlank '"' = false := by decide
  have hcolon : isBlank ':' = false := by decide
  have hbrace : isBlank '\x7d' = false := by decide
  simp only [membersText_singleton_append, takeMembers?, skipBlanks_cons hquote,
    takeString?_flatMap_escapeChar, skipBlanks_cons hcolon, h.value v _ hv hlength hend,
    skipBlanks_cons hbrace]

theorem succ_members (ms : List (Option Text × Json)) (rest : Text) (hne : ms ≠ [])
    (hms : membersAreWritable ms) (hlength : (membersText ms).length + 1 < fuel + 1) :
    takeMembers? (fuel + 1) (membersText ms ++ '\x7d' :: rest) = some (ms, rest) := by
  obtain ⟨⟨name?, v⟩, ms, rfl⟩ := List.exists_cons_of_ne_nil hne
  rw [membersAreWritable, Bool.and_eq_true, Bool.and_eq_true] at hms
  obtain ⟨⟨hname, hv⟩, hothers⟩ := hms
  obtain ⟨name, rfl⟩ := Option.isSome_iff_exists.mp hname
  have hone : (text v).length ≤ (membersText [(some name, v)]).length := by
    rw [membersText, List.length_append, List.length_cons]
    omega
  cases ms with
  | nil => exact h.takeMembers?_last hv (by omega)
  | cons m ms =>
    rw [membersText_cons_cons, List.length_append, List.length_cons] at hlength
    have hlater := h.members (m :: ms) rest (List.cons_ne_nil _ _) hothers (by omega)
    rw [membersText_cons_cons, List.append_assoc, List.cons_append,
      h.takeMembers?_cons hv (by omega), hlater, Option.map_some]

end ReadsBack

theorem readsBack (fuel : Nat) : ReadsBack fuel := by
  induction fuel with
  | zero => exact readsBack_zero
  | succ fuel ih => exact ⟨ih.succ_value, ih.succ_elements, ih.succ_members⟩

/-- **A value that was written is read as itself.** -/
theorem ofText?_text {v : Json} (hv : v.isWritable) : ofText? (text v) = some v := by
  have hread := (readsBack ((text v).length + 1)).value v [] hv (Nat.lt_succ_self _) endsNumber_nil
  rw [List.append_nil] at hread
  rw [ofText?, hread]
  rfl

end Json

end BatteryBench
