import PhpDriver.Data.Phrase
import PhpDriver.Util.ColumnType
import PhpDriver.Util.Encode

namespace PhpDriver

open Data

/-! The texts of types, as `__toString` gives them. -/

/-- The names of `PHP_DRIVER_SCALAR_TYPES_MAP`. -/
def ScalarType.name : ScalarType → String
  | .ascii => "ascii"
  | .bigint => "bigint"
  | .blob => "blob"
  | .boolean => "boolean"
  | .counter => "counter"
  | .decimal => "decimal"
  | .double => "double"
  | .float => "float"
  | .int => "int"
  | .text => "text"
  | .timestamp => "timestamp"
  | .uuid => "uuid"
  | .varchar => "varchar"
  | .varint => "varint"
  | .timeuuid => "timeuuid"
  | .inet => "inet"
  | .date => "date"
  | .time => "time"
  | .smallint => "smallint"
  | .tinyint => "tinyint"
  | .duration => "duration"

section

/-! The loop over the fields of a user type reads a key where it expects a name, since the macro
stores a `zend_string *` in its `char *name`: `header` has what a table's key starts with. -/

variable (header : List UInt8 → List UInt8)

mutual

/-- `php_driver_type_string`, or undefined behaviour. -/
def typeString : ColumnType → Option (List UInt8)
  | .undef => none
  | .scalar type => some (ascii type.name)
  | .custom _ => some (ascii "invalid")
  | .list valueType =>
      (typeString valueType).map fun value => ascii "list<" ++ value ++ ascii ">"
  | .map keyType valueType =>
      match typeString keyType, typeString valueType with
      | some key, some value => some (ascii "map<" ++ key ++ ascii ", " ++ value ++ ascii ">")
      | _, _ => none
  | .set valueType =>
      (typeString valueType).map fun value => ascii "set<" ++ value ++ ascii ">"
  | .tuple types =>
      (tupleString true types).map fun types => ascii "tuple<" ++ types ++ ascii ">"
  | .userType keyspace (some typeName) _ =>
      match keyspace with
      | none => some (cString typeName)
      | some keyspace => some (cString keyspace ++ ascii "." ++ cString typeName)
  | .userType _ none fields =>
      (userTypeString true fields).map fun fields => ascii "userType<" ++ fields ++ ascii ">"

def tupleString (first : Bool) : List ColumnType → Option (List UInt8)
  | [] => some []
  | type :: types =>
      match typeString type, tupleString false types with
      | some type, some types => some ((if first then [] else ascii ", ") ++ type ++ types)
      | _, _ => none

def userTypeString (first : Bool) : List (List UInt8 × ColumnType) → Option (List UInt8)
  | [] => some []
  | (name, type) :: fields =>
      match typeString type, userTypeString false fields with
      | some type, some fields =>
          some ((if first then [] else ascii ", ") ++ cString (header name) ++ ascii ":" ++ type ++
            fields)
      | _, _ => none

end

mutual

def ColumnType.asRead : ColumnType → ColumnType
  | .undef => .undef
  | .scalar type => .scalar type
  | .custom className => .custom className
  | .list valueType => .list valueType.asRead
  | .map keyType valueType => .map keyType.asRead valueType.asRead
  | .set valueType => .set valueType.asRead
  | .tuple types => .tuple (allAsRead types)
  | .userType keyspace typeName fields => .userType keyspace typeName (fieldsAsRead fields)

def ColumnType.allAsRead : List ColumnType → List ColumnType
  | [] => []
  | type :: types => type.asRead :: allAsRead types

def ColumnType.fieldsAsRead : List (List UInt8 × ColumnType) → List (List UInt8 × ColumnType)
  | [] => []
  | (name, type) :: fields => (cString (header name), type.asRead) :: fieldsAsRead fields

end

end

/-! A text as a phrase, of which a field of a user type has its name in front of the word. -/

def typeBrackets : Brackets UInt8 where
  opening := 0x3C
  closing := 0x3E
  comma := 0x2C
  blanks := [0x20]
  opening_ne_closing := by decide
  opening_ne_comma := by decide
  closing_ne_comma := by decide

def dot : UInt8 := 0x2E

def fieldColon : UInt8 := 0x3A

def labelled (label : List UInt8) : Phrase UInt8 → Phrase UInt8
  | .word word => .word (label ++ fieldColon :: word)
  | .applied word arguments => .applied (label ++ fieldColon :: word) arguments

theorem text_labelled (label : List UInt8) (phrase : Phrase UInt8) :
    typeBrackets.text (labelled label phrase) =
      label ++ fieldColon :: typeBrackets.text phrase := by
  cases phrase with
  | word word => rfl
  | applied word arguments =>
      rw [labelled, Brackets.text, Brackets.text, List.append_assoc, List.cons_append]

namespace ColumnType

mutual

def phrase : ColumnType → Phrase UInt8
  | .undef => .word []
  | .scalar type => .word (ascii type.name)
  | .custom _ => .word (ascii "invalid")
  | .list valueType => .applied (ascii "list") [valueType.phrase]
  | .map keyType valueType => .applied (ascii "map") [keyType.phrase, valueType.phrase]
  | .set valueType => .applied (ascii "set") [valueType.phrase]
  | .tuple types => .applied (ascii "tuple") (phrases types)
  | .userType keyspace (some typeName) _ =>
      match keyspace with
      | none => .word typeName
      | some keyspace => .word (keyspace ++ dot :: typeName)
  | .userType _ none fields => .applied (ascii "userType") (fieldPhrases fields)

def phrases : List ColumnType → List (Phrase UInt8)
  | [] => []
  | type :: types => type.phrase :: phrases types

def fieldPhrases : List (List UInt8 × ColumnType) → List (Phrase UInt8)
  | [] => []
  | (name, type) :: fields => labelled name type.phrase :: fieldPhrases fields

end

def Clear (name : List UInt8) : Prop :=
  ∀ ch ∈ name, ¬ typeBrackets.Delimits ch ∧ ch ≠ dot ∧ ch ≠ fieldColon ∧ ch ≠ 0

mutual

/-- Its parts are there, its names are clear, and none stands alone that is the name of another
type. -/
def Named : ColumnType → Prop
  | .undef => False
  | .scalar _ => True
  | .custom _ => True
  | .list valueType => valueType.Named
  | .map keyType valueType => keyType.Named ∧ valueType.Named
  | .set valueType => valueType.Named
  | .tuple types => AllNamed types
  | .userType keyspace (some typeName) _ =>
      Clear typeName ∧
        match keyspace with
        | none => typeName ≠ [] ∧ typeName ≠ ascii "invalid" ∧
            ∀ type : ScalarType, typeName ≠ ascii type.name
        | some keyspace => Clear keyspace
  | .userType _ none fields => FieldsNamed fields

def AllNamed : List ColumnType → Prop
  | [] => True
  | type :: types => type.Named ∧ AllNamed types

def FieldsNamed : List (List UInt8 × ColumnType) → Prop
  | [] => True
  | (name, type) :: fields => Clear name ∧ type.Named ∧ FieldsNamed fields

end

mutual

/-- What the text tells of it: neither the class of a custom type, nor the fields of a user type
that has a name. -/
def printed : ColumnType → ColumnType
  | .undef => .undef
  | .scalar type => .scalar type
  | .custom _ => .custom []
  | .list valueType => .list valueType.printed
  | .map keyType valueType => .map keyType.printed valueType.printed
  | .set valueType => .set valueType.printed
  | .tuple types => .tuple (allPrinted types)
  | .userType keyspace (some typeName) _ => .userType keyspace (some typeName) []
  | .userType _ none fields => .userType none none (fieldsPrinted fields)

def allPrinted : List ColumnType → List ColumnType
  | [] => []
  | type :: types => type.printed :: allPrinted types

def fieldsPrinted : List (List UInt8 × ColumnType) → List (List UInt8 × ColumnType)
  | [] => []
  | (name, type) :: fields => (name, type.printed) :: fieldsPrinted fields

end

theorem Clear.cString {name : List UInt8} (clear : Clear name) : cString name = name := by
  rw [PhpDriver.cString, List.takeWhile_eq_self_iff]
  intro ch member
  simpa using (clear ch member).2.2.2

theorem text_applied {word opened : List UInt8} (opens : opened = word ++ [typeBrackets.opening])
    (arguments : List (Phrase UInt8)) :
    typeBrackets.text (.applied word arguments) =
      opened ++ typeBrackets.texts arguments ++ ascii ">" := by
  have closes : ascii ">" = [typeBrackets.closing] := by decide +kernel
  rw [Brackets.text, opens, closes, List.append_assoc, List.append_assoc, List.singleton_append]

theorem comma_blanks : ascii ", " = typeBrackets.comma :: typeBrackets.blanks := by
  decide +kernel

theorem texts_cons (phrase : Phrase UInt8) (phrases : List (Phrase UInt8)) :
    typeBrackets.texts (phrase :: phrases) =
      typeBrackets.text phrase ++
        if phrases.isEmpty then [] else ascii ", " ++ typeBrackets.texts phrases := by
  rw [Brackets.texts, comma_blanks, List.cons_append]

section

variable (header : List UInt8 → List UInt8)

theorem isEmpty_phrases (types : List ColumnType) :
    (phrases (allAsRead header types)).isEmpty = types.isEmpty := by
  cases types <;> rw [allAsRead, phrases] <;> rfl

theorem isEmpty_fieldPhrases (fields : List (List UInt8 × ColumnType)) :
    (fieldPhrases (fieldsAsRead header fields)).isEmpty = fields.isEmpty := by
  cases fields <;> rw [fieldsAsRead, fieldPhrases] <;> rfl

mutual

theorem typeString_eq : ∀ {type : ColumnType}, (type.asRead header).Named →
    typeString header type = some (typeBrackets.text (type.asRead header).phrase)
  | .undef, named => by
      rw [asRead, Named] at named
      exact named.elim
  | .scalar _, _ | .custom _, _ => rfl
  | .list valueType, named => by
      rw [asRead, Named] at named
      rw [typeString, typeString_eq named, asRead, phrase,
        text_applied (by decide +kernel : ascii "list<" = _), Brackets.texts_singleton]
      rfl
  | .map keyType valueType, named => by
      rw [asRead, Named] at named
      rw [typeString, typeString_eq named.1, typeString_eq named.2, asRead, phrase,
        text_applied (by decide +kernel : ascii "map<" = _), texts_cons, if_neg (by simp),
        Brackets.texts_singleton]
      simp
  | .set valueType, named => by
      rw [asRead, Named] at named
      rw [typeString, typeString_eq named, asRead, phrase,
        text_applied (by decide +kernel : ascii "set<" = _), Brackets.texts_singleton]
      rfl
  | .tuple types, named => by
      rw [asRead, Named] at named
      rw [typeString, tupleString_eq true named, asRead, phrase,
        text_applied (by decide +kernel : ascii "tuple<" = _)]
      cases types <;> rfl
  | .userType none (some typeName) _, named => by
      rw [asRead, Named] at named
      rw [typeString, asRead, phrase, named.1.cString, Brackets.text]
  | .userType (some keyspace) (some typeName) _, named => by
      rw [asRead, Named] at named
      rw [typeString, asRead, phrase, named.1.cString, named.2.cString, Brackets.text,
        List.append_assoc]
      rfl
  | .userType _ none fields, named => by
      rw [asRead, Named] at named
      rw [typeString, userTypeString_eq true named, asRead, phrase,
        text_applied (by decide +kernel : ascii "userType<" = _)]
      cases fields <;> rfl

theorem tupleString_eq (first : Bool) : ∀ {types : List ColumnType},
    AllNamed (allAsRead header types) → tupleString header first types =
      some (if types.isEmpty then []
        else (if first then [] else ascii ", ") ++
          typeBrackets.texts (phrases (allAsRead header types)))
  | [], _ => rfl
  | type :: types, named => by
      rw [allAsRead, AllNamed] at named
      rw [tupleString, typeString_eq named.1, tupleString_eq false named.2, allAsRead, phrases,
        texts_cons, isEmpty_phrases]
      simp

theorem userTypeString_eq (first : Bool) : ∀ {fields : List (List UInt8 × ColumnType)},
    FieldsNamed (fieldsAsRead header fields) → userTypeString header first fields =
      some (if fields.isEmpty then []
        else (if first then [] else ascii ", ") ++
          typeBrackets.texts (fieldPhrases (fieldsAsRead header fields)))
  | [], _ => rfl
  | (name, type) :: fields, named => by
      have colon : ascii ":" = [fieldColon] := by decide +kernel
      rw [fieldsAsRead, FieldsNamed] at named
      rw [userTypeString, typeString_eq named.2.1, userTypeString_eq false named.2.2,
        fieldsAsRead, fieldPhrases, texts_cons, isEmpty_fieldPhrases, text_labelled, colon]
      simp

end

end

theorem isWord_ascii {word : String} (nonempty : ascii word ≠ [])
    (outside : ∀ ch ∈ ascii word, ch ∉ [0x3C, 0x3E, 0x2C]) : typeBrackets.IsWord (ascii word) where
  nonempty := nonempty
  outside := by
    intro ch member delimits
    apply outside ch member
    obtain rfl | rfl | rfl := delimits <;> decide

theorem Clear.outside {name : List UInt8} (clear : Clear name) :
    ∀ ch ∈ name, ¬ typeBrackets.Delimits ch :=
  fun ch member => (clear ch member).1

theorem not_delimits_dot : ¬ typeBrackets.Delimits dot := by
  rintro (same | same | same) <;> exact absurd same (by decide)

theorem not_delimits_fieldColon : ¬ typeBrackets.Delimits fieldColon := by
  rintro (same | same | same) <;> exact absurd same (by decide)

theorem readable_labelled {label : List UInt8} (clear : Clear label) {phrase : Phrase UInt8}
    (readable : typeBrackets.Readable phrase) :
    typeBrackets.Readable (labelled label phrase) := by
  have isWord {word : List UInt8} (isWord : typeBrackets.IsWord word) :
      typeBrackets.IsWord (label ++ fieldColon :: word) := by
    refine ⟨by simp, fun ch member => ?_⟩
    rcases List.mem_append.mp member with before | after
    · exact clear.outside ch before
    · rcases List.mem_cons.mp after with rfl | after
      · exact not_delimits_fieldColon
      · exact isWord.outside ch after
  cases phrase with
  | word word => exact isWord readable
  | applied word arguments => exact ⟨isWord readable.1, readable.2⟩

mutual

theorem readable_phrase : ∀ {type : ColumnType}, type.Named → typeBrackets.Readable type.phrase
  | .undef, named => by
      rw [Named] at named
      exact named.elim
  | .scalar type, _ => by
      rw [phrase, Brackets.Readable]
      cases type <;> exact isWord_ascii (by decide +kernel) (by decide +kernel)
  | .custom _, _ => isWord_ascii (by decide +kernel) (by decide +kernel)
  | .list valueType, named => by
      rw [Named] at named
      exact ⟨isWord_ascii (by decide +kernel) (by decide +kernel), readable_phrase named, trivial⟩
  | .map keyType valueType, named => by
      rw [Named] at named
      exact ⟨isWord_ascii (by decide +kernel) (by decide +kernel), readable_phrase named.1,
        readable_phrase named.2, trivial⟩
  | .set valueType, named => by
      rw [Named] at named
      exact ⟨isWord_ascii (by decide +kernel) (by decide +kernel), readable_phrase named, trivial⟩
  | .tuple types, named => by
      rw [Named] at named
      exact ⟨isWord_ascii (by decide +kernel) (by decide +kernel), readable_phrases named⟩
  | .userType none (some typeName) _, named => by
      rw [Named] at named
      exact ⟨named.2.1, named.1.outside⟩
  | .userType (some keyspace) (some typeName) _, named => by
      rw [Named] at named
      refine ⟨by simp, fun ch member => ?_⟩
      rcases List.mem_append.mp member with before | after
      · exact named.2.outside ch before
      · rcases List.mem_cons.mp after with rfl | after
        · exact not_delimits_dot
        · exact named.1.outside ch after
  | .userType _ none fields, named => by
      rw [Named] at named
      exact ⟨isWord_ascii (by decide +kernel) (by decide +kernel), readable_fieldPhrases named⟩

theorem readable_phrases : ∀ {types : List ColumnType}, AllNamed types →
    typeBrackets.AllReadable (phrases types)
  | [], _ => trivial
  | type :: types, named => by
      rw [AllNamed] at named
      exact ⟨readable_phrase named.1, readable_phrases named.2⟩

theorem readable_fieldPhrases : ∀ {fields : List (List UInt8 × ColumnType)}, FieldsNamed fields →
    typeBrackets.AllReadable (fieldPhrases fields)
  | [], _ => trivial
  | (name, type) :: fields, named => by
      rw [FieldsNamed] at named
      exact ⟨readable_labelled named.1 (readable_phrase named.2.1),
        readable_fieldPhrases named.2.2⟩

end

def front (ch : UInt8) (word : List UInt8) : List UInt8 :=
  word.takeWhile (· != ch)

def behind (ch : UInt8) (word : List UInt8) : List UInt8 :=
  (word.dropWhile (· != ch)).tail

def scalarTypes : List ScalarType :=
  [.ascii, .bigint, .blob, .boolean, .counter, .decimal, .double, .float, .int, .text, .timestamp,
    .uuid, .varchar, .varint, .timeuuid, .inet, .date, .time, .smallint, .tinyint, .duration]

def readWord (word : List UInt8) : ColumnType :=
  match scalarTypes.find? fun type => ascii type.name == word with
  | some type => .scalar type
  | none =>
      if word == ascii "invalid" then .custom []
      else if word.contains dot then .userType (some (front dot word)) (some (behind dot word)) []
      else .userType none (some word) []

def assembled (word : List UInt8) (types : List ColumnType)
    (fields : List (List UInt8 × ColumnType)) : ColumnType :=
  if word == ascii "list" then .list (types.headD .undef)
  else if word == ascii "map" then .map (types.headD .undef) (types.tail.headD .undef)
  else if word == ascii "set" then .set (types.headD .undef)
  else if word == ascii "tuple" then .tuple types
  else .userType none none fields

mutual

def readPhrase : Phrase UInt8 → ColumnType
  | .word word => readWord word
  | .applied word arguments => assembled word (readPhrases arguments) (readFields arguments)

def readPhrases : List (Phrase UInt8) → List ColumnType
  | [] => []
  | phrase :: phrases => readPhrase phrase :: readPhrases phrases

def readField : Phrase UInt8 → List UInt8 × ColumnType
  | .word word => (front fieldColon word, readWord (behind fieldColon word))
  | .applied word arguments =>
      (front fieldColon word,
        assembled (behind fieldColon word) (readPhrases arguments) (readFields arguments))

def readFields : List (Phrase UInt8) → List (List UInt8 × ColumnType)
  | [] => []
  | phrase :: phrases => readField phrase :: readFields phrases

end

section

variable {ch : UInt8} {name : List UInt8} (absent : ch ∉ name) (rest : List UInt8)

include absent

theorem all_ne : ∀ other ∈ name, (other != ch) = true := by
  intro other member
  rw [bne_iff_ne]
  rintro rfl
  exact absent member

theorem front_append : front ch (name ++ ch :: rest) = name := by
  rw [front, List.takeWhile_append_of_pos (all_ne absent),
    List.takeWhile_cons_of_neg (by simp), List.append_nil]

theorem behind_append : behind ch (name ++ ch :: rest) = rest := by
  rw [behind, List.dropWhile_append_of_pos (all_ne absent), List.dropWhile_cons_of_neg (by simp),
    List.tail_cons]

end

theorem readField_labelled {label : List UInt8} (absent : fieldColon ∉ label)
    (phrase : Phrase UInt8) : readField (labelled label phrase) = (label, readPhrase phrase) := by
  cases phrase with
  | word word =>
      rw [labelled, readField, front_append absent, behind_append absent, readPhrase]
  | applied word arguments =>
      rw [labelled, readField, front_append absent, behind_append absent, readPhrase]

theorem Clear.no_dot {name : List UInt8} (clear : Clear name) : dot ∉ name :=
  fun member => (clear dot member).2.1 rfl

theorem Clear.no_colon {name : List UInt8} (clear : Clear name) : fieldColon ∉ name :=
  fun member => (clear fieldColon member).2.2.1 rfl

theorem readWord_scalar (type : ScalarType) : readWord (ascii type.name) = .scalar type := by
  have found :
      scalarTypes.find? (fun other => ascii other.name == ascii type.name) = some type := by
    cases type <;> decide +kernel
  rw [readWord, found]

theorem readWord_of_none {word : List UInt8} (none : ∀ type : ScalarType, word ≠ ascii type.name)
    (valid : word ≠ ascii "invalid") :
    readWord word =
      if word.contains dot then .userType (some (front dot word)) (some (behind dot word)) []
      else .userType Option.none (some word) [] := by
  have missed : scalarTypes.find? (fun type => ascii type.name == word) = Option.none := by
    rw [List.find?_eq_none]
    intro type _ same
    exact none type (beq_iff_eq.mp same).symm
  rw [readWord, missed]
  simp [valid]

mutual

theorem readPhrase_phrase : ∀ {type : ColumnType}, type.Named →
    readPhrase type.phrase = type.printed
  | .undef, named => by
      rw [Named] at named
      exact named.elim
  | .scalar type, _ => readWord_scalar type
  | .custom _, _ => rfl
  | .list valueType, named => by
      rw [Named] at named
      rw [phrase, readPhrase, readPhrases, readPhrase_phrase named, printed]
      rfl
  | .map keyType valueType, named => by
      rw [Named] at named
      rw [phrase, readPhrase, readPhrases, readPhrases, readPhrase_phrase named.1,
        readPhrase_phrase named.2, printed]
      rfl
  | .set valueType, named => by
      rw [Named] at named
      rw [phrase, readPhrase, readPhrases, readPhrase_phrase named, printed]
      rfl
  | .tuple types, named => by
      rw [Named] at named
      rw [phrase, readPhrase, readPhrases_phrases named, printed]
      rfl
  | .userType none (some typeName) _, named => by
      rw [Named] at named
      rw [phrase, readPhrase, readWord_of_none named.2.2.2 named.2.2.1, if_neg, printed]
      simp [named.1.no_dot]
  | .userType (some keyspace) (some typeName) _, named => by
      rw [Named] at named
      have dotted : dot ∈ keyspace ++ dot :: typeName := by simp
      rw [phrase, readPhrase, readWord_of_none, if_pos (by simp),
        front_append named.2.no_dot, behind_append named.2.no_dot, printed]
      · intro type same
        rw [same] at dotted
        revert dotted
        cases type <;> decide +kernel
      · intro same
        rw [same] at dotted
        revert dotted
        decide +kernel
  | .userType _ none fields, named => by
      rw [Named] at named
      rw [phrase, readPhrase, readFields_fieldPhrases named, printed]
      rfl

theorem readPhrases_phrases : ∀ {types : List ColumnType}, AllNamed types →
    readPhrases (phrases types) = allPrinted types
  | [], _ => rfl
  | type :: types, named => by
      rw [AllNamed] at named
      rw [phrases, readPhrases, readPhrase_phrase named.1, readPhrases_phrases named.2, allPrinted]

theorem readFields_fieldPhrases : ∀ {fields : List (List UInt8 × ColumnType)},
    FieldsNamed fields → readFields (fieldPhrases fields) = fieldsPrinted fields
  | [], _ => rfl
  | (name, type) :: fields, named => by
      rw [FieldsNamed] at named
      rw [fieldPhrases, readFields, readField_labelled named.1.no_colon,
        readPhrase_phrase named.2.1, readFields_fieldPhrases named.2.2, fieldsPrinted]

end

mutual

theorem phrase_printed : ∀ type : ColumnType, type.printed.phrase = type.phrase
  | .undef | .scalar _ | .custom _ => rfl
  | .list valueType => by rw [printed, phrase, phrase_printed valueType, phrase]
  | .map keyType valueType => by
      rw [printed, phrase, phrase_printed keyType, phrase_printed valueType, phrase]
  | .set valueType => by rw [printed, phrase, phrase_printed valueType, phrase]
  | .tuple types => by rw [printed, phrase, phrases_allPrinted types, phrase]
  | .userType none (some typeName) _ => by rw [printed, phrase, phrase]
  | .userType (some keyspace) (some typeName) _ => by rw [printed, phrase, phrase]
  | .userType _ none fields => by rw [printed, phrase, fieldPhrases_fieldsPrinted fields, phrase]

theorem phrases_allPrinted : ∀ types : List ColumnType,
    phrases (allPrinted types) = phrases types
  | [] => rfl
  | type :: types => by
      rw [allPrinted, phrases, phrase_printed type, phrases_allPrinted types, phrases]

theorem fieldPhrases_fieldsPrinted : ∀ fields : List (List UInt8 × ColumnType),
    fieldPhrases (fieldsPrinted fields) = fieldPhrases fields
  | [] => rfl
  | (name, type) :: fields => by
      rw [fieldsPrinted, fieldPhrases, phrase_printed type, fieldPhrases_fieldsPrinted fields,
        fieldPhrases]

end

theorem phrase_eq_iff {first second : ColumnType} (named : first.Named)
    (namedSecond : second.Named) :
    first.phrase = second.phrase ↔ first.printed = second.printed := by
  constructor
  · intro same
    rw [← readPhrase_phrase named, same, readPhrase_phrase namedSecond]
  · intro same
    rw [← phrase_printed first, same, phrase_printed second]

end ColumnType

end PhpDriver
