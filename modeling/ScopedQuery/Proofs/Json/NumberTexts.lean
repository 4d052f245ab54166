import Mathlib.Data.List.TakeWhile
import ScopedQuery.Proofs.Cell.Decimals
import ScopedQuery.Proofs.Json.WellFormed
import ScopedQuery.Proofs.Result
/-!
# Texts of numbers

A number whose text is read as that number is read as it wherever its text stands. For this the
readers of the parts of a number are followed once more: what each of them takes from a text is a
front part of it, and of that part it makes the same with anything else behind it that does not
continue the number.
-/

namespace ScopedQuery.Json

variable {rest text after : List Letter} {mantissa found : Mantissa} {negative down : Bool}
  {number : Number} {places : Nat} {document : Document}

/-! ### Front parts -/

def NoDigit (rest : List Letter) : Prop := ∀ letter ∈ rest.head?, letter.isDigit = false

theorem Ends.noDigit (h : Ends rest) : NoDigit rest := fun letter first => (h letter first).1

theorem noDigit_dropWhile (text : List Letter) : NoDigit (text.dropWhile Letter.isDigit) := by
  intro letter first
  have stopped := List.head?_dropWhile_not Letter.isDigit text
  rwa [Option.mem_def.1 first] at stopped

theorem dropWhile_takeWhile_append (stop : NoDigit rest) (text : List Letter) :
    (text.takeWhile Letter.isDigit ++ rest).dropWhile Letter.isDigit = rest := by
  rw [List.dropWhile_append_of_pos fun letter => List.mem_takeWhile_imp]
  cases rest with
  | nil => rfl
  | cons letter rest =>
    rw [List.dropWhile_cons_of_neg]
    rw [stop letter rfl]
    decide

/-- The reader takes all of the text but `after`, and gives the same whenever the part taken stands
before something else. -/
def Front {β : Type} (stop : List Letter → Prop) (read : List Letter → β)
    (result : List Letter → β) (text after : List Letter) : Prop :=
  ∃ taken, text = taken ++ after ∧ ∀ rest, stop rest → read (taken ++ rest) = result rest

section Front

variable {β γ : Type} {stop : List Letter → Prop} {read before : List Letter → β}
  {result : List Letter → β} {letter : Letter}

theorem Front.nil (h : ∀ rest, stop rest → read rest = result rest) :
    Front stop read result after after :=
  ⟨[], rfl, h⟩

/-- A reader that goes on as another one behind its first letter. -/
theorem Front.cons (h : Front stop read result text after)
    (step : ∀ rest, before (letter :: rest) = read rest) :
    Front stop before result (letter :: text) after := by
  obtain ⟨taken, split, same⟩ := h
  refine ⟨letter :: taken, congrArg (letter :: ·) split, fun rest ends => ?_⟩
  exact (step _).trans (same rest ends)

theorem Front.map (h : Front stop read result text after) (make : β → γ) :
    Front stop (fun text => make (read text)) (fun rest => make (result rest)) text after := by
  obtain ⟨taken, split, same⟩ := h
  exact ⟨taken, split, fun rest ends => congrArg make (same rest ends)⟩

/-- Dropping digits. -/
theorem front_dropWhile (text : List Letter) :
    Front NoDigit (List.dropWhile Letter.isDigit) id text (text.dropWhile Letter.isDigit) :=
  ⟨text.takeWhile Letter.isDigit, List.takeWhile_append_dropWhile.symm,
    fun _ stop => dropWhile_takeWhile_append stop text⟩

end Front

/-! ### Digits -/

theorem wholeDigits_of_noDigit (stop : NoDigit rest) (start : Nat) :
    wholeDigits start rest = (⟨start, 0⟩, rest) := by
  cases rest with
  | nil => rfl
  | cons letter rest => simp only [wholeDigits, digit?_eq_none (stop letter rfl)]

theorem noDigit_of_digit?_eq_none {letter : Letter} (h : letter.digit? = none) :
    NoDigit (letter :: rest) := by
  rintro _ ⟨⟩
  rw [Letter.isDigit, h]
  rfl

theorem front_wholeDigits {start : Nat} (h : wholeDigits start text = (found, after)) :
    NoDigit after ∧ Front NoDigit (wholeDigits start) (fun rest => (found, rest)) text after := by
  induction text generalizing start with
  | nil =>
    cases h
    exact ⟨ends_nil.noDigit, .nil fun rest stop => wholeDigits_of_noDigit stop _⟩
  | cons letter text ih =>
    rw [wholeDigits] at h
    cases digit : letter.digit? with
    | none =>
      rw [digit] at h
      cases h
      exact ⟨noDigit_of_digit?_eq_none digit, .nil fun rest stop => wholeDigits_of_noDigit stop _⟩
    | some value =>
      simp only [digit] at h
      split at h
      · next full =>
        cases h
        refine ⟨noDigit_dropWhile text, letter :: text.takeWhile Letter.isDigit, ?_, ?_⟩
        · rw [List.cons_append, List.takeWhile_append_dropWhile]
        · intro rest stop
          have length : text.length = (text.takeWhile Letter.isDigit).length
              + (text.dropWhile Letter.isDigit).length := by
            rw [← List.length_append, List.takeWhile_append_dropWhile]
          simp only [List.cons_append, wholeDigits, digit, if_pos full,
            dropWhile_takeWhile_append stop, List.length_append, length, Nat.add_sub_cancel]
      · next fits =>
        obtain ⟨stopped, front⟩ := ih h
        exact ⟨stopped, front.cons fun rest => by simp only [wholeDigits, digit, if_neg fits]⟩

theorem fractionDigits_of_noDigit (stop : NoDigit rest) (mantissa : Mantissa) :
    fractionDigits mantissa rest = (mantissa, rest) := by
  cases rest with
  | nil => rfl
  | cons letter rest => simp only [fractionDigits, digit?_eq_none (stop letter rfl)]

theorem front_fractionDigits (h : fractionDigits mantissa text = (found, after)) :
    NoDigit after
      ∧ Front NoDigit (fractionDigits mantissa) (fun rest => (found, rest)) text after := by
  induction text generalizing mantissa with
  | nil =>
    cases h
    exact ⟨ends_nil.noDigit, .nil fun rest stop => fractionDigits_of_noDigit stop _⟩
  | cons letter text ih =>
    rw [fractionDigits] at h
    cases digit : letter.digit? with
    | none =>
      rw [digit] at h
      cases h
      exact ⟨noDigit_of_digit?_eq_none digit,
        .nil fun rest stop => fractionDigits_of_noDigit stop _⟩
    | some value =>
      simp only [digit] at h
      split at h
      · next full =>
        cases h
        refine ⟨noDigit_dropWhile text, ((front_dropWhile text).map (found, ·)).cons ?_⟩
        intro rest
        simp only [fractionDigits, digit, if_pos full]
      · next fits =>
        obtain ⟨stopped, front⟩ := ih h
        exact ⟨stopped, front.cons fun rest => by simp only [fractionDigits, digit, if_neg fits]⟩

theorem exponentDigits_of_noDigit (stop : NoDigit rest) (places : Nat) :
    exponentDigits places rest = (some places, rest) := by
  cases rest with
  | nil => rfl
  | cons letter rest => simp only [exponentDigits, digit?_eq_none (stop letter rfl)]

theorem front_exponentDigits_some {result : Nat}
    (h : exponentDigits places text = (some result, after)) :
    Front NoDigit (exponentDigits places) (fun rest => (some result, rest)) text after := by
  induction text generalizing places with
  | nil =>
    cases h
    exact .nil fun rest stop => exponentDigits_of_noDigit stop _
  | cons letter text ih =>
    rw [exponentDigits] at h
    cases digit : letter.digit? with
    | none =>
      rw [digit] at h
      cases h
      exact .nil fun rest stop => exponentDigits_of_noDigit stop _
    | some value =>
      simp only [digit] at h
      split at h
      · cases h
      · next fits => exact (ih h).cons fun rest => by simp only [exponentDigits, digit, if_neg fits]

theorem front_exponentDigits_none (h : exponentDigits places text = (none, after)) :
    Front (fun _ => True) (exponentDigits places) (fun rest => (none, rest)) text after := by
  induction text generalizing places with
  | nil => cases h
  | cons letter text ih =>
    rw [exponentDigits] at h
    cases digit : letter.digit? with
    | none =>
      rw [digit] at h
      cases h
    | some value =>
      simp only [digit] at h
      split at h
      · next full =>
        cases h
        refine ⟨[letter], rfl, fun rest _ => ?_⟩
        simp only [List.singleton_append, exponentDigits, digit, if_pos full]
      · next fits => exact (ih h).cons fun rest => by simp only [exponentDigits, digit, if_neg fits]

/-! ### Numbers -/

/-- A reader of numbers that takes a front part of the text. -/
abbrev FrontNumber (read : List Letter → Part Document) (number : Number)
    (text after : List Letter) : Prop :=
  Front Ends read (fun rest => .ok (.number number, rest)) text after

/-- What follows a number decides nothing but the place of a fault. -/
theorem document_congr (h : (mantissa.document negative text).value = .ok (.number number))
    (rest : List Letter) : mantissa.document negative rest = .number number := by
  unfold Mantissa.document at h ⊢
  cases scaled : mantissa.scaled with
  | some value =>
    rw [scaled] at h
    cases h
    rfl
  | none =>
    rw [scaled] at h
    cases h

theorem extreme_congr (h : (mantissa.extreme negative down text).value = .ok (.number number))
    (rest : List Letter) : mantissa.extreme negative down rest = .number number := by
  unfold Mantissa.extreme at h ⊢
  split at h
  · next small =>
    rw [if_pos small]
    cases h
    rfl
  · cases h

theorem plain_congr
    (h : (readFraction.plain mantissa negative text).value = .ok (.number number))
    (rest : List Letter) : readFraction.plain mantissa negative rest = .number number := by
  unfold readFraction.plain at h ⊢
  split at h
  · next scaled =>
    rw [if_pos scaled]
    exact document_congr h rest
  · next unscaled =>
    rw [if_neg unscaled]
    split_ifs at h ⊢ <;>
      · cases h
        rfl

/-- An exponent after its sign. -/
def readPlaces (mantissa : Mantissa) (negative down : Bool) : List Letter → Part Document
  | [] => failAt .endInValue []
  | letter :: rest =>
    match letter.digit? with
    | none => failAt .invalidNumber (letter :: rest)
    | some value =>
      match exponentDigits value rest with
      | (some places, after) =>
        let exponent := if down then mantissa.exponent - places else mantissa.exponent + places
        .ok (Mantissa.document ⟨mantissa.digits, exponent⟩ negative after, after)
      | (none, after) =>
        .ok (mantissa.extreme negative down after, after.dropWhile Letter.isDigit)

theorem readExponent_unsigned {letter : Letter} (plus : letter ≠ .char '+')
    (minus : letter ≠ .char '-') (rest : List Letter) :
    readExponent mantissa negative (letter :: rest)
      = readPlaces mantissa negative false (letter :: rest) := by
  unfold readExponent
  split
  next down text sign =>
    split at sign
    · next same => exact absurd (List.cons.inj same).1 plus
    · next same => exact absurd (List.cons.inj same).1 minus
    · cases sign
      rfl

theorem front_readPlaces (h : readPlaces mantissa negative down text = .ok (document, after))
    (value : document.value = .ok (.number number)) :
    FrontNumber (readPlaces mantissa negative down) number text after := by
  cases text with
  | nil => cases h
  | cons letter text =>
    rw [readPlaces] at h
    cases digit : letter.digit? with
    | none =>
      rw [digit] at h
      cases h
    | some value =>
      simp only [digit] at h
      cases counted : exponentDigits value text with
      | mk result left =>
        rw [counted] at h
        cases result with
        | some places =>
          obtain ⟨rfl, rfl⟩ := Prod.mk.inj (Except.ok.inj h)
          obtain ⟨taken, split, same⟩ := front_exponentDigits_some counted
          refine ⟨letter :: taken, congrArg (letter :: ·) split, fun rest ends => ?_⟩
          simp only [List.cons_append, readPlaces, digit, same rest ends.noDigit,
            document_congr value]
        | none =>
          obtain ⟨rfl, rfl⟩ := Prod.mk.inj (Except.ok.inj h)
          obtain ⟨taken, split, same⟩ := front_exponentDigits_none counted
          refine ⟨letter :: (taken ++ left.takeWhile Letter.isDigit), ?_, fun rest ends => ?_⟩
          · rw [split, List.cons_append, List.append_assoc, List.takeWhile_append_dropWhile]
          · simp only [List.cons_append, List.append_assoc, readPlaces, digit, same _ trivial,
              extreme_congr value, dropWhile_takeWhile_append ends.noDigit]

theorem front_readExponent (h : readExponent mantissa negative text = .ok (document, after))
    (value : document.value = .ok (.number number)) :
    FrontNumber (readExponent mantissa negative) number text after := by
  cases text with
  | nil => cases h
  | cons letter text =>
    by_cases plus : letter = .char '+'
    · subst plus
      have front : FrontNumber (readPlaces mantissa negative false) number text after :=
        front_readPlaces h value
      exact front.cons fun rest => rfl
    by_cases minus : letter = .char '-'
    · subst minus
      have front : FrontNumber (readPlaces mantissa negative true) number text after :=
        front_readPlaces h value
      exact front.cons fun rest => rfl
    rw [readExponent_unsigned plus minus] at h
    obtain ⟨taken, split, same⟩ := front_readPlaces h value
    refine ⟨taken, split, fun rest ends => ?_⟩
    cases taken with
    | nil => cases same [] ends_nil
    | cons first taken =>
      obtain ⟨rfl, -⟩ := List.cons.inj split
      rw [← same rest ends]
      exact readExponent_unsigned plus minus _

/-- What may stand behind the digits of a number: an exponent, or the end of the number, where
`whole` is what was read. -/
def readTail (whole : List Letter → Document) (mantissa : Mantissa) (negative : Bool) :
    List Letter → Part Document
  | [] => .ok (whole [], [])
  | mark :: rest =>
    if mark = .char 'e' ∨ mark = .char 'E' then readExponent mantissa negative rest
    else .ok (whole (mark :: rest), mark :: rest)

theorem readTail_ends (whole : List Letter → Document) (ends : Ends rest) :
    readTail whole mantissa negative rest = .ok (whole rest, rest) := by
  cases rest with
  | nil => rfl
  | cons mark rest =>
    obtain ⟨-, -, small, capital⟩ := ends mark rfl
    rw [readTail, if_neg (not_or.2 ⟨small, capital⟩)]

theorem front_readTail {whole : List Letter → Document}
    (congr : ∀ {text}, (whole text).value = .ok (.number number) →
      ∀ rest, whole rest = .number number)
    (h : readTail whole mantissa negative text = .ok (document, after))
    (value : document.value = .ok (.number number)) :
    FrontNumber (readTail whole mantissa negative) number text after := by
  have ended (made : (whole after).value = .ok (.number number)) :
      FrontNumber (readTail whole mantissa negative) number after after :=
    .nil fun rest ends => by rw [readTail_ends whole ends, congr made]
  cases text with
  | nil =>
    obtain ⟨rfl, rfl⟩ := Prod.mk.inj (Except.ok.inj h)
    exact ended value
  | cons mark text =>
    rw [readTail] at h
    split at h
    · next exponent =>
      exact (front_readExponent h value).cons fun rest => by rw [readTail, if_pos exponent]
    · obtain ⟨rfl, rfl⟩ := Prod.mk.inj (Except.ok.inj h)
      exact ended value

theorem readFraction_whole (h : ∀ rest, text ≠ .char '.' :: rest) :
    readFraction mantissa negative text
      = readTail (readFraction.plain mantissa negative) mantissa negative text := by
  unfold readFraction
  split
  · next rest => exact absurd rfl (h rest)
  · cases text <;> rfl

theorem readFraction_digits {letter : Letter} (digit : letter.isDigit = true) (rest : List Letter) :
    readFraction mantissa negative (.char '.' :: letter :: rest)
      = readTail ((fractionDigits mantissa (letter :: rest)).1.document negative)
        (fractionDigits mantissa (letter :: rest)).1 negative
        (fractionDigits mantissa (letter :: rest)).2 := by
  rw [readFraction]
  simp only [if_pos digit]
  cases (fractionDigits mantissa (letter :: rest)).2 <;> rfl

theorem NoDigit.replace {taken : List Letter} (h : NoDigit (taken ++ after)) (stop : NoDigit rest) :
    NoDigit (taken ++ rest) := by
  cases taken with
  | nil => exact stop
  | cons letter taken => exact h

theorem front_readFraction (h : readFraction mantissa negative text = .ok (document, after))
    (value : document.value = .ok (.number number)) :
    FrontNumber (readFraction mantissa negative) number text after := by
  by_cases point : ∃ rest, text = .char '.' :: rest
  · obtain ⟨rest, rfl⟩ := point
    cases rest with
    | nil => cases h
    | cons letter text =>
      by_cases digit : letter.isDigit = true
      · rw [readFraction_digits digit] at h
        cases counted : fractionDigits mantissa (letter :: text) with
        | mk found left =>
          rw [counted] at h
          obtain ⟨stopped, places, split, same⟩ := front_fractionDigits counted
          obtain ⟨tail, rfl, same'⟩ := front_readTail (fun made => document_congr made) h value
          cases places with
          | nil =>
            rw [List.nil_append] at split
            rw [← split] at stopped
            exact absurd digit (by simp [stopped letter rfl])
          | cons first places =>
            obtain ⟨rfl, rfl⟩ := List.cons.inj split
            refine ⟨.char '.' :: letter :: (places ++ tail), by simp, fun rest ends => ?_⟩
            have counted' := same (tail ++ rest) (stopped.replace ends.noDigit)
            rw [List.cons_append] at counted'
            simp only [List.cons_append, List.append_assoc, readFraction_digits digit, counted']
            exact same' rest ends
      · rw [readFraction] at h
        simp only [if_neg digit] at h
        cases h
  · have other : ∀ rest, text ≠ .char '.' :: rest := fun rest same => point ⟨rest, same⟩
    rw [readFraction_whole other] at h
    obtain ⟨taken, rfl, same⟩ := front_readTail (fun made => plain_congr made) h value
    refine ⟨taken, rfl, fun rest ends => ?_⟩
    rw [← same rest ends]
    refine readFraction_whole fun more => ?_
    cases taken with
    | nil =>
      rintro rfl
      exact (ends _ rfl).2.1 rfl
    | cons first taken =>
      rintro ⟨⟩
      exact other _ rfl

theorem front_readMagnitude (h : readMagnitude negative text = .ok (document, after))
    (value : document.value = .ok (.number number)) :
    FrontNumber (readMagnitude negative) number text after := by
  cases text with
  | nil => cases h
  | cons letter text =>
    by_cases zero : letter = .char '0'
    · subst zero
      have read {rest : List Letter} (stop : NoDigit rest) :
          readMagnitude negative (.char '0' :: rest) = readFraction ⟨0, 0⟩ negative rest := by
        cases rest with
        | nil => rfl
        | cons letter rest =>
          simp only [readMagnitude, stop letter rfl, Bool.false_eq_true, if_false]
      have stop : NoDigit text := by
        cases text with
        | nil => exact ends_nil.noDigit
        | cons letter text =>
          rintro _ ⟨⟩
          rw [← Bool.not_eq_true]
          intro digit
          simp only [readMagnitude, if_pos digit] at h
          cases h
      rw [read stop] at h
      obtain ⟨taken, rfl, same⟩ := front_readFraction h value
      refine ⟨.char '0' :: taken, rfl, fun rest ends => ?_⟩
      rw [List.cons_append, read (stop.replace ends.noDigit), same rest ends]
    · have read (rest : List Letter) : readMagnitude negative (letter :: rest)
          = if letter.isDigit then
              readFraction (wholeDigits 0 (letter :: rest)).1 negative
                (wholeDigits 0 (letter :: rest)).2
            else failAt .invalidNumber (letter :: rest) := by
        rw [readMagnitude]
        exact fun same => zero same
      rw [read] at h
      split at h
      · next digit =>
        cases counted : wholeDigits 0 (letter :: text) with
        | mk found left =>
          rw [counted] at h
          obtain ⟨stopped, places, split, same⟩ := front_wholeDigits counted
          obtain ⟨tail, rfl, same'⟩ := front_readFraction h value
          cases places with
          | nil =>
            rw [List.nil_append] at split
            rw [← split] at stopped
            exact absurd digit (by simp [stopped letter rfl])
          | cons first places =>
            obtain ⟨rfl, rfl⟩ := List.cons.inj split
            refine ⟨letter :: (places ++ tail), by simp, fun rest ends => ?_⟩
            have counted' := same (tail ++ rest) (stopped.replace ends.noDigit)
            rw [List.cons_append] at counted'
            rw [List.cons_append, List.append_assoc, read, if_pos digit, counted']
            exact same' rest ends
      · cases h

/-! ### Characters of numbers -/

/-- Digits and the marks between them. -/
def Numeral (chars : List Char) : Prop :=
  ∀ char ∈ chars, Text.isDigit char = true ∨ char ∈ ['-', '+', '.', 'e']

theorem numeral_of_allDigits {digits : List Char} (all : Text.AllDigits digits) : Numeral digits :=
  fun char member => .inl (all char member)

theorem Numeral.append {chars chars' : List Char} (h : Numeral chars) (h' : Numeral chars') :
    Numeral (chars ++ chars') :=
  List.forall_mem_append.2 ⟨h, h'⟩

theorem Numeral.cons {char : Char} {chars : List Char}
    (mark : char ∈ ['-', '+', '.', 'e']) (h : Numeral chars) : Numeral (char :: chars) :=
  List.forall_mem_cons.2 ⟨.inr mark, h⟩

theorem numeral_signedDecimal (value : Int) : Numeral (Text.signedDecimal value) := by
  have digits := numeral_of_allDigits (Text.allDigits_decimal value.natAbs)
  unfold Text.signedDecimal
  split
  · exact digits.cons (by decide)
  · exact digits

theorem numeral_positional {digits : List Char} (all : Text.AllDigits digits) (first : Int) :
    Numeral (Binary64.positional digits first) := by
  have zeros (count : Nat) := numeral_of_allDigits (Text.allDigits_replicate count)
  have part {some : List Char} (within : some ⊆ digits) : Numeral some :=
    numeral_of_allDigits fun char member => all char (within member)
  unfold Binary64.positional
  dsimp only
  split
  · exact (((zeros 1).append ((zeros _).cons (by decide))).append (part (List.Subset.refl digits)))
  · split
    · exact ((part (List.Subset.refl digits)).append (zeros _)).append ((zeros 1).cons (by decide))
    · exact (part (List.take_subset ..)).append ((part (List.drop_subset ..)).cons (by decide))

theorem numeral_scientific {digits : List Char} (all : Text.AllDigits digits) (first : Int) :
    Numeral (Binary64.scientific digits first) := by
  have part {some : List Char} (within : some ⊆ digits) : Numeral some :=
    numeral_of_allDigits fun char member => all char (within member)
  have exponent := numeral_of_allDigits (Text.allDigits_decimal first.natAbs)
  refine ((part (List.take_subset ..)).append ?_).append
    (Numeral.cons (by decide) (exponent.cons (by split <;> decide)))
  split
  · exact nofun
  · exact (part (List.drop_subset ..)).cons (by decide)

theorem numeral_float {value : Binary64} (finite : value.isFinite = true) :
    Numeral value.chars := by
  cases value with
  | nan negative => cases finite
  | infinite negative => cases finite
  | finite negative mantissa scale =>
    have magnitude : Numeral (Binary64.magnitudeText mantissa scale) := by
      unfold Binary64.magnitudeText
      split
      · exact ((numeral_of_allDigits (Text.allDigits_replicate 1)).append
          (Numeral.cons (by decide) (numeral_of_allDigits (Text.allDigits_replicate 1))))
      · dsimp only
        split
        · exact numeral_positional (Text.allDigits_decimal _) _
        · exact numeral_scientific (Text.allDigits_decimal _) _
    rw [Binary64.chars]
    split
    · exact magnitude.cons (by decide)
    · exact magnitude

theorem Number.WellFormed.numeral (h : number.WellFormed) : Numeral number.chars := by
  cases h with
  | integer => exact numeral_signedDecimal _
  | float finite => exact numeral_float finite

/-! ### Numbers that read back -/

/-- The text of a number is read as the number. -/
def Number.ReadsBack (number : Number) : Prop := Json.read? number.text = some (.number number)

/-- The number that a value is. -/
def number? : Json → Option Number
  | .number number => some number
  | _ => none

theorem Number.readsBack_iff :
    number.ReadsBack ↔ (Json.read? number.text).bind number? = some number := by
  rw [ReadsBack]
  constructor
  · intro back
    rw [back]
    rfl
  · intro back
    obtain ⟨json, read, found⟩ := Option.bind_eq_some_iff.1 back
    cases json with
    | number other =>
      cases found
      exact read
    | null | bool | string | array | object => cases found

instance : Decidable number.ReadsBack := decidable_of_iff _ Number.readsBack_iff.symm

theorem isSpace_numeral {char : Char}
    (h : Text.isDigit char = true ∨ char ∈ ['-', '+', '.', 'e']) :
    isSpace (.char char) = false := by
  rcases h with digit | mark
  · exact isSpace_digit digit
  · simp only [List.mem_cons, List.not_mem_nil, or_false] at mark
    rcases mark with rfl | rfl | rfl | rfl <;> rfl

theorem complete_eq_ok {whole : Document} (h : complete (document, after) = .ok whole) :
    whole = document ∧ skipSpace after = [] := by
  rw [complete] at h
  split at h
  · next none => exact ⟨(Except.ok.inj h).symm, none⟩
  · cases h

/-- Nothing but blanks can be left behind a whole text, and a number has none. -/
theorem eq_nil_of_numeral {taken : List Letter} {chars : List Char} (numeral : Numeral chars)
    (split : letters chars = taken ++ after) (none : skipSpace after = []) : after = [] := by
  cases after with
  | nil => rfl
  | cons letter rest =>
    have member : letter ∈ letters chars := by
      rw [split]
      exact List.mem_append_right taken (List.mem_cons_self ..)
    obtain ⟨char, within, rfl⟩ := List.mem_map.1 member
    rw [skipSpace_cons (isSpace_numeral (numeral char within))] at none
    cases none

theorem front_readDocument {fuel depth : Nat} {char : Char}
    (numeral : Text.isDigit char = true ∨ char ∈ ['-', '+', '.', 'e'])
    (h : readDocument (fuel + 1) depth (.char char :: text) = .ok (document, after))
    (value : document.value = .ok (.number number)) :
    ∃ taken, text = taken ++ after ∧ ∀ fuel depth rest, Ends rest →
      readDocument (fuel + 1) depth (.char char :: (taken ++ rest))
        = .ok (.number number, rest) := by
  rcases numeral with digit | mark
  · rw [readDocument_digit digit] at h
    obtain ⟨taken, split, same⟩ := front_readMagnitude h value
    cases taken with
    | nil => cases same [] ends_nil
    | cons first taken =>
      obtain ⟨rfl, others⟩ := List.cons.inj split
      refine ⟨taken, others, fun fuel depth rest ends => ?_⟩
      rw [readDocument_digit digit]
      exact same rest ends
  · by_cases minus : char = '-'
    · subst minus
      have read (fuel depth : Nat) (rest : List Letter) :
          readDocument (fuel + 1) depth (.char '-' :: rest) = readMagnitude true rest := by
        rw [readDocument, skipSpace_cons (by decide)]
        rfl
      rw [read] at h
      obtain ⟨taken, split, same⟩ := front_readMagnitude h value
      exact ⟨taken, split, fun fuel depth rest ends => (read _ _ _).trans (same rest ends)⟩
    · have other : char = '+' ∨ char = '.' ∨ char = 'e' := by simpa [minus] using mark
      rcases other with rfl | rfl | rfl <;>
        · rw [readDocument, skipSpace_cons (by decide)] at h
          cases h

/-- A number that reads back is read wherever its text stands. -/
theorem Number.ReadsBack.reads (back : number.ReadsBack) (numeral : Numeral number.chars)
    (depth : Nat) : Reads depth (.number number) number.chars := by
  have read : (readAll (letters number.chars) >>= Document.value) = .ok (.number number) := by
    rw [ReadsBack, Json.read?, Json.read, Letter.ofText, Number.text, String.toList_ofList] at back
    change (readAll (letters number.chars) >>= Document.value).toOption = _ at back
    cases whole : readAll (letters number.chars) >>= Document.value with
    | error fault =>
      rw [whole] at back
      cases back
    | ok json =>
      rw [whole] at back
      cases back
      rfl
  obtain ⟨whole, read, value⟩ := bind_eq_ok.1 read
  obtain ⟨⟨document, after⟩, first, read⟩ := bind_eq_ok.1 read
  obtain ⟨rfl, none⟩ := complete_eq_ok read
  generalize number.chars = chars at first numeral
  cases chars with
  | nil => simp [readDocument, skipSpace, failAt] at first
  | cons char chars =>
    obtain ⟨start, others⟩ := List.forall_mem_cons.1 numeral
    obtain ⟨taken, split, same⟩ := front_readDocument start first value
    obtain rfl := eq_nil_of_numeral others split none
    rw [List.append_nil] at split
    subst split
    refine ⟨⟨char, chars, rfl, isSpace_numeral start, ?_⟩, fun fuel rest enough ends => ?_⟩
    · rintro rfl
      revert start
      decide
    · obtain ⟨fuel, rfl⟩ : ∃ less, fuel = less + 1 := ⟨fuel - 1, by simp at enough; omega⟩
      exact same fuel depth rest ends

theorem readsBack_integer {value : Int} (least : -(Text.maxWord : Int) - 1 ≤ value)
    (most : value ≤ Text.maxCount) : (Number.integer value).ReadsBack := by
  have chars : Numeric.Fixed.chars ⟨value, 0⟩ = Text.signedDecimal value := by
    simp only [Numeric.Fixed.chars, Numeric.Fixed.whole, Text.signedDecimal, Nat.pow_zero,
      Nat.div_one, if_true, List.append_nil]
    split <;> rfl
  have read := Numeric.Fixed.read?_chars ⟨value, 0⟩
  rw [Numeric.Fixed.reading_of_word rfl (by simp only; omega) most, chars] at read
  exact read

end ScopedQuery.Json
