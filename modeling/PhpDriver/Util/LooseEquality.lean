import PhpDriver.Data.DecimalText
import PhpDriver.Util.DataCompare

namespace PhpDriver

open Data

/-! `is_equal_function`, PHP's `==`, on PHP 8, of an argument and a value of the driver.
`none` stands for undefined behaviour. -/

/-- What `is_numeric_string` makes of a string, with the side on which an integer overflows. -/
inductive ZendNumber where
  | long (value : BitVec 64)
  | double (bits : BitVec 64) (overflow : Int)

/-- The conversions of Zend and of the classes that a comparison asks for. -/
structure Zend where
  isNumericString : List UInt8 → Option ZendNumber
  numeric : ∀ text bits overflow, isNumericString text = some (.double bits overflow) →
    Ieee.isNan doubleFraction bits = false
  longToDouble : BitVec 64 → BitVec 64
  doubleToString : BitVec 64 → List UInt8
  /-- Whether a NaN is equal to all numbers, as in the older of the versions, or to none. -/
  nanEqual : Bool
  /-- The `cast_object` of a class, by the type that is asked for. It may fail. -/
  castObject : Zval → Nat → Option (Option Scalar)
  /-- Of an argument that is an array, a resource or an object of another class. -/
  foreignEqual : Zval → Option Bool

namespace Scalar

def isTrue : Scalar → Bool
  | .bool value => value
  | .long value => value != 0
  | .double bits => Ieee.magnitude bits != 0
  | .string bytes => bytes != [] && bytes != [0x30]
  | _ => true

end Scalar

variable (zendHash : List UInt8 → BitVec 32) (zend : Zend)

namespace Zend

def doubleEqual (first second : BitVec 64) : Bool :=
  if Ieee.isNan doubleFraction first || Ieee.isNan doubleFraction second then zend.nanEqual
  else Ieee.order first == Ieee.order second

/-- `zendi_smart_strcmp`. -/
def smartEqual (first second : List UInt8) : Bool :=
  match zend.isNumericString first, zend.isNumericString second with
  | some (.long firstValue), some (.long secondValue) => firstValue == secondValue
  | some (.long value), some (.double bits overflow)
  | some (.double bits overflow), some (.long value) =>
      overflow == 0 && zend.doubleEqual (zend.longToDouble value) bits
  | some (.double firstBits firstOverflow), some (.double secondBits secondOverflow) =>
      if zend.doubleEqual firstBits secondBits &&
          (firstOverflow != 0 && firstOverflow == secondOverflow ||
            Ieee.magnitude firstBits == 0x7ff0000000000000) then
        first == second
      else zend.doubleEqual firstBits secondBits
  | _, _ => first == second

def longEqualsString (value : BitVec 64) (text : List UInt8) : Bool :=
  match zend.isNumericString text with
  | some (.long other) => value == other
  | some (.double bits _) => zend.doubleEqual (zend.longToDouble value) bits
  | none => DecimalText.ofInt value.toInt == text

def doubleEqualsString (bits : BitVec 64) (text : List UInt8) : Bool :=
  if Ieee.isNan doubleFraction bits then false
  else
    match zend.isNumericString text with
    | some (.long other) => zend.doubleEqual bits (zend.longToDouble other)
    | some (.double otherBits _) => zend.doubleEqual bits otherBits
    | none => zend.doubleToString bits == text

def scalarEqual : Scalar → Scalar → Bool
  | .bool first, second => second.isTrue == first
  | first, .bool second => first.isTrue == second
  | .long first, .long second => first == second
  | .double first, .double second => zend.doubleEqual first second
  | .string first, .string second => zend.smartEqual first second
  | .long value, .double bits | .double bits, .long value =>
      zend.doubleEqual (zend.longToDouble value) bits
  | .long value, .string text | .string text, .long value => zend.longEqualsString value text
  | .double bits, .string text | .string text, .double bits =>
      zend.doubleEqualsString bits text
  | _, _ => false

/-- A string is null when it is empty, everything else when it is not true. -/
def nullEqual : Scalar → Bool
  | .string bytes => bytes.isEmpty
  | value => !value.isTrue

def plainEqual : Zval → Zval → Bool
  | .null, .null => true
  | .null, .scalar value | .scalar value, .null => nullEqual value
  | .scalar first, .scalar second => zend.scalarEqual first second
  | _, _ => false

/-- The `compare` handler that a class installs takes both values for objects, and the
one of Zend casts the object. -/
def castEqual (object value : Zval) : Option Bool :=
  if value.isNull then some false
  else if object.inheritsCompare then
    (zend.castObject object value.zType).map fun casted =>
      zend.plainEqual (.scalar (casted.getD (.long 1))) value
  else none

end Zend

/-- An argument and an element. That an object is equal to itself is in its comparison. -/
def isEqual : Zval → Zval → Option Bool
  | .foreign, element => zend.foreignEqual element
  | argument, element =>
      if argument.zType = 8 then
        if element.zType = 8 then
          (dataCompare zendHash argument element).map fun result => result == 0
        else zend.castEqual argument element
      else if element.zType = 8 then zend.castEqual element argument
      else some (zend.plainEqual argument element)

/-! When `==` tells whether the two stand for one value. -/

/-- The class of an object, and otherwise the type, which both booleans share. -/
def Zval.phpKind (value : Zval) : Option ValueClass × Nat :=
  (value.valueClass, if value.zType = 3 then 2 else value.zType)

inductive Tells : Zval → Zval → Prop
  | null : Tells .null .null
  | bool (first second : Bool) : Tells (.scalar (.bool first)) (.scalar (.bool second))
  | long (first second : BitVec 64) : Tells (.scalar (.long first)) (.scalar (.long second))
  | string {first second : List UInt8}
      (apart : first ≠ second → zend.smartEqual first second = false) :
      Tells (.scalar (.string first)) (.scalar (.string second))
  | number {first second : BitVec 64} (firstIs : Ieee.isNan doubleFraction first = false)
      (secondIs : Ieee.isNan doubleFraction second = false)
      (zeros : Ieee.order first = Ieee.order second → first = second) :
      Tells (.scalar (.double first)) (.scalar (.double second))
  | nan {first second : BitVec 64}
      (either : (Ieee.isNan doubleFraction first || Ieee.isNan doubleFraction second) = true)
      (equal : zend.nanEqual =
        (Ieee.isNan doubleFraction first && Ieee.isNan doubleFraction second)) :
      Tells (.scalar (.double first)) (.scalar (.double second))
  | installed {first second : Scalar} {valueClass : ValueClass}
      (firstClass : first.valueClass = some valueClass)
      (secondClass : second.valueClass = some valueClass) (ordered : first.Ordered) :
      Tells (.scalar first) (.scalar second)
  | inherited {first second : Zval} {valueClass : ValueClass}
      (firstClass : first.valueClass = some valueClass)
      (secondClass : second.valueClass = some valueClass)
      (inherits : first.inheritsCompare) (same : first.Same second) : Tells first second
  | container {first second : Zval} {valueClass : ValueClass} {own : CassType}
      (firstClass : first.valueClass = some valueClass)
      (secondClass : second.valueClass = some valueClass)
      (isContainer : first.ownType = some own) (compares : first.inheritsCompare = false)
      {order : Int} (compared : dataCompare zendHash first second = some order)
      (tells : order = 0 ↔ first.Same second) : Tells first second
  | juggled {first second : Zval} (kinds : first.phpKind ≠ second.phpKind)
      (unequal : isEqual zendHash zend first second = some false) : Tells first second

variable {zendHash zend}

theorem smartEqual_self (text : List UInt8) : zend.smartEqual text text = true := by
  unfold Zend.smartEqual
  cases number : zend.isNumericString text with
  | none => simp
  | some number_ =>
      cases number_ with
      | long value => simp
      | double bits overflow =>
          have finite := zend.numeric text bits overflow number
          simp [Zend.doubleEqual, finite]

theorem doubleEqual_numbers {first second : BitVec 64}
    (firstIs : Ieee.isNan doubleFraction first = false)
    (secondIs : Ieee.isNan doubleFraction second = false) :
    zend.doubleEqual first second = true ↔ Ieee.order first = Ieee.order second := by
  simp [Zend.doubleEqual, firstIs, secondIs]

theorem doubleEqual_nan {first second : BitVec 64}
    (either : (Ieee.isNan doubleFraction first || Ieee.isNan doubleFraction second) = true) :
    zend.doubleEqual first second = zend.nanEqual := by
  rw [Zend.doubleEqual, if_pos either]

theorem same_double_iff {first second : BitVec 64} :
    (Zval.scalar (.double first)).Same (.scalar (.double second)) ↔
      doubleToBits first = doubleToBits second := by
  rw [Zval.same_scalar_iff, doubleToBits_eq, doubleToBits_eq]
  simp [Zval.meaning, Scalar.normal]

theorem valueClass_normal (value : Scalar) : value.normal.valueClass = value.valueClass := by
  cases value <;> rfl

theorem Zval.Same.phpKind {first second : Zval} (same : first.Same second) :
    first.phpKind = second.phpKind := by
  cases first with
  | scalar value =>
      rw [Zval.same_scalar_iff] at same
      have types := zType_congr same
      cases second with
      | scalar other =>
          rw [Zval.meaning, Zval.meaning, CassValue.scalar.injEq] at same
          have classes := congrArg Scalar.valueClass same
          rw [valueClass_normal, valueClass_normal] at classes
          rw [Zval.phpKind, Zval.phpKind, types, Zval.valueClass, Zval.valueClass, classes]
      | _ => simp [Zval.meaning] at same
  | _ =>
      cases second <;> simp only [Zval.Same, Zval.meaning] at same <;>
        first
          | rfl
          | cases same

theorem zType_of_valueClass {value : Zval} {valueClass : ValueClass}
    (known : value.valueClass = some valueClass) : value.zType = 8 := by
  cases value with
  | null | foreign => cases known
  | scalar value => cases value <;> first | rfl | cases known
  | _ => rfl

theorem isEqual_objects {first second : Zval} {valueClass : ValueClass}
    (firstClass : first.valueClass = some valueClass) (secondType : second.zType = 8) :
    isEqual zendHash zend first second =
      (dataCompare zendHash first second).map fun result => result == 0 := by
  have firstType := zType_of_valueClass firstClass
  cases first with
  | foreign => cases firstClass
  | _ => simp [isEqual, firstType, secondType]

theorem dataCompare_of_inherits {first second : Zval} {valueClass : ValueClass}
    (firstClass : first.valueClass = some valueClass)
    (secondClass : second.valueClass = some valueClass) (inherits : first.inheritsCompare) :
    dataCompare zendHash first second = some 0 := by
  cases first with
  | scalar first =>
      cases second with
      | scalar second =>
          cases first <;> try cases inherits
          all_goals
            obtain rfl := Option.some.inj firstClass
            cases second <;> first
              | simp [valueCompare, objectCompare, Zval.zType]; done
              | cases secondClass
      | _ =>
          cases first <;> try cases inherits
          all_goals
            obtain rfl := Option.some.inj firstClass
            cases secondClass
  | collection valueType values =>
      obtain rfl := Option.some.inj firstClass
      cases second with
      | collection otherType others => exact dataCompare_collections _ _ _ _
      | scalar second => cases second <;> cases secondClass
      | _ => cases secondClass
  | map keyType valueType entries =>
      obtain rfl := Option.some.inj firstClass
      cases second with
      | map otherKeyType otherType others => exact dataCompare_maps _ _ _ _ _ _
      | scalar second => cases second <;> cases secondClass
      | _ => cases secondClass
  | _ => cases inherits

theorem compare_alike {first second : Scalar} (alike : first.Alike second)
    (ordered : second.Ordered) :
    ∃ order, dataCompare zendHash (.scalar first) (.scalar second) = some order ∧
      (order = 0 ↔ (Zval.scalar first).Same (.scalar second)) := by
  refine ⟨first.compareAlike second, ?_, ?_⟩
  · rw [dataCompare_scalar, Scalar.valueCompare_of_alike alike ordered]
  · rw [Scalar.compareAlike_eq_zero_iff alike, Zval.same_scalar_iff, Zval.meaning, Zval.meaning,
      CassValue.scalar.injEq]

theorem compare_installed {first second : Scalar} {valueClass : ValueClass}
    (firstClass : first.valueClass = some valueClass)
    (secondClass : second.valueClass = some valueClass) (ordered : first.Ordered) :
    ∃ order, dataCompare zendHash (.scalar first) (.scalar second) = some order ∧
      (order = 0 ↔ (Zval.scalar first).Same (.scalar second)) := by
  have types : first.zType = second.zType :=
    (@zType_of_valueClass (.scalar first) _ firstClass).trans
      (@zType_of_valueClass (.scalar second) _ secondClass).symm
  have alike : first.Alike second := ⟨types, firstClass.trans secondClass.symm⟩
  have otherOrdered : second.Ordered := by
    cases alike.sameForm <;> exact ordered
  exact compare_alike alike otherOrdered

theorem doubleToBits_eq_iff_of_nan {first second : BitVec 64}
    (either : (Ieee.isNan doubleFraction first || Ieee.isNan doubleFraction second) = true) :
    doubleToBits first = doubleToBits second ↔
      (Ieee.isNan doubleFraction first && Ieee.isNan doubleFraction second) = true := by
  have nan : Ieee.isNan doubleFraction (0x7ff8000000000000 : BitVec 64) = true := by decide
  grind [doubleToBits]

theorem Tells.isEqual {first second : Zval} (tells : Tells zendHash zend first second) :
    ∃ equal, isEqual zendHash zend first second = some equal ∧
      (equal = true ↔ first.Same second) := by
  cases tells with
  | null => exact ⟨true, rfl, iff_of_true rfl (.refl .null)⟩
  | bool first second =>
      refine ⟨second == first, ?_, ?_⟩
      · cases first <;> cases second <;> rfl
      · rw [Zval.same_scalar_iff, beq_iff_eq]
        simp only [Zval.meaning, Scalar.normal, CassValue.scalar.injEq, Scalar.bool.injEq]
        exact eq_comm
  | long first second =>
      refine ⟨first == second, rfl, ?_⟩
      rw [Zval.same_scalar_iff, beq_iff_eq]
      simp only [Zval.meaning, Scalar.normal, CassValue.scalar.injEq, Scalar.long.injEq]
  | @string first second apart =>
      refine ⟨zend.smartEqual first second, rfl, ?_⟩
      rw [Zval.same_scalar_iff]
      simp only [Zval.meaning, Scalar.normal, CassValue.scalar.injEq, Scalar.string.injEq]
      constructor
      · intro equal
        by_contra differ
        rw [apart differ] at equal
        cases equal
      · rintro rfl
        exact smartEqual_self first
  | @number first second firstIs secondIs zeros =>
      refine ⟨zend.doubleEqual first second, rfl, ?_⟩
      rw [doubleEqual_numbers firstIs secondIs, same_double_iff, doubleToBits, doubleToBits,
        firstIs, secondIs]
      constructor
      · exact zeros
      · intro same
        exact congrArg Ieee.order same
  | @nan first second either equal =>
      refine ⟨zend.doubleEqual first second, rfl, ?_⟩
      rw [doubleEqual_nan either, equal, same_double_iff, doubleToBits_eq_iff_of_nan either]
  | @installed first second valueClass firstClass secondClass ordered =>
      obtain ⟨order, compared, tells⟩ :=
        @compare_installed zendHash _ _ _ firstClass secondClass ordered
      refine ⟨order == 0, ?_, by rw [beq_iff_eq, tells]⟩
      rw [@isEqual_objects _ _ (.scalar first) (.scalar second) _ firstClass
          (@zType_of_valueClass (.scalar second) _ secondClass), compared, Option.map_some]
  | inherited firstClass secondClass inherits same =>
      refine ⟨true, ?_, iff_of_true rfl same⟩
      rw [isEqual_objects firstClass (zType_of_valueClass secondClass),
        dataCompare_of_inherits firstClass secondClass inherits]
      rfl
  | @container _ _ _ _ firstClass secondClass _ _ order compared tells =>
      refine ⟨order == 0, ?_, by rw [beq_iff_eq, tells]⟩
      rw [isEqual_objects firstClass (zType_of_valueClass secondClass), compared, Option.map_some]
  | juggled kinds unequal => exact ⟨false, unequal, by simp [mt Zval.Same.phpKind kinds]⟩

theorem tells_of_objects {first second : Zval} {valueClass : ValueClass}
    (firstClass : first.valueClass = some valueClass)
    (secondClass : second.valueClass = some valueClass) {equal : Bool}
    (compared : isEqual zendHash zend first second = some equal)
    (tells : equal = true ↔ first.Same second) : Tells zendHash zend first second := by
  rw [isEqual_objects firstClass (zType_of_valueClass secondClass)] at compared
  obtain ⟨order, ordered, rfl⟩ := Option.map_eq_some_iff.mp compared
  rw [beq_iff_eq] at tells
  cases compares : first.inheritsCompare with
  | true =>
      rw [dataCompare_of_inherits firstClass secondClass compares] at ordered
      obtain rfl := Option.some.inj ordered
      exact .inherited firstClass secondClass compares (tells.mp rfl)
  | false =>
      cases first with
      | null | foreign => cases firstClass
      | scalar first =>
          cases second with
          | null | foreign => cases secondClass
          | scalar second => exact .installed firstClass secondClass compares
          | _ =>
              obtain rfl := Option.some.inj secondClass
              cases first <;> cases firstClass
      | _ => exact .container firstClass secondClass rfl compares ordered tells

theorem tells_of_strings {first second : List UInt8}
    (tells : zend.smartEqual first second = true ↔
      (Zval.scalar (.string first)).Same (.scalar (.string second))) :
    Tells zendHash zend (.scalar (.string first)) (.scalar (.string second)) := by
  apply Tells.string
  intro differ
  rw [Zval.same_scalar_iff] at tells
  simp only [Zval.meaning, Scalar.normal, CassValue.scalar.injEq, Scalar.string.injEq] at tells
  rw [← Bool.not_eq_true, tells]
  exact differ

theorem tells_of_doubles {first second : BitVec 64}
    (tells : zend.doubleEqual first second = true ↔
      (Zval.scalar (.double first)).Same (.scalar (.double second))) :
    Tells zendHash zend (.scalar (.double first)) (.scalar (.double second)) := by
  rw [same_double_iff] at tells
  cases either : Ieee.isNan doubleFraction first || Ieee.isNan doubleFraction second with
  | true =>
      rw [doubleEqual_nan either, doubleToBits_eq_iff_of_nan either] at tells
      exact .nan either (Bool.eq_iff_iff.mpr tells)
  | false =>
      obtain ⟨firstIs, secondIs⟩ := Bool.or_eq_false_iff.mp either
      rw [doubleEqual_numbers firstIs secondIs, doubleToBits, doubleToBits, firstIs,
        secondIs] at tells
      exact .number firstIs secondIs tells.mp

theorem tells_of_plain {first second : Scalar} (firstClass : first.valueClass = none)
    (secondClass : second.valueClass = none)
    (kinds : (Zval.scalar first).phpKind = (Zval.scalar second).phpKind) {equal : Bool}
    (compared : isEqual zendHash zend (.scalar first) (.scalar second) = some equal)
    (tells : equal = true ↔ (Zval.scalar first).Same (.scalar second)) :
    Tells zendHash zend (.scalar first) (.scalar second) := by
  have types := congrArg Prod.snd kinds
  cases first with
  | bool first =>
      cases second with
      | bool second => exact .bool first second
      | long _ | double _ | string _ => cases first <;> cases types
      | _ => cases secondClass
  | long first =>
      cases second with
      | bool second => cases second <;> cases types
      | long second => exact .long first second
      | double _ | string _ => cases types
      | _ => cases secondClass
  | double first =>
      cases second with
      | bool second => cases second <;> cases types
      | double second =>
          obtain rfl : zend.doubleEqual first second = equal := Option.some.inj compared
          exact tells_of_doubles tells
      | long _ | string _ => cases types
      | _ => cases secondClass
  | string first =>
      cases second with
      | bool second => cases second <;> cases types
      | string second =>
          obtain rfl : zend.smartEqual first second = equal := Option.some.inj compared
          exact tells_of_strings tells
      | long _ | double _ => cases types
      | _ => cases secondClass
  | _ => cases firstClass

theorem zType_of_plain {value : Scalar} (plain : value.valueClass = none) :
    1 < (Zval.scalar value).zType ∧ (Zval.scalar value).zType < 8 := by
  cases value with
  | bool value => cases value <;> decide
  | long _ | double _ | string _ => simp [Zval.zType]
  | _ => cases plain

theorem tells_of_isEqual {first second : Zval} (known : second ≠ .foreign) {equal : Bool}
    (compared : isEqual zendHash zend first second = some equal)
    (tells : equal = true ↔ first.Same second) : Tells zendHash zend first second := by
  by_cases kinds : first.phpKind = second.phpKind
  · have classes : first.valueClass = second.valueClass := congrArg Prod.fst kinds
    have types := congrArg Prod.snd kinds
    cases secondClass : second.valueClass with
    | some valueClass =>
        exact tells_of_objects (classes.trans secondClass) secondClass compared tells
    | none =>
        rw [secondClass] at classes
        cases second with
        | null =>
            cases first with
            | null => exact .null
            | scalar first =>
                have bounds := zType_of_plain classes
                simp only [Zval.phpKind, Zval.zType] at types bounds
                grind
            | foreign => cases types
            | _ => cases classes
        | scalar second =>
            have bounds := zType_of_plain secondClass
            cases first with
            | scalar first => exact tells_of_plain classes secondClass kinds compared tells
            | null | foreign =>
                simp only [Zval.phpKind, Zval.zType] at types bounds
                grind
            | _ => cases classes
        | foreign => exact absurd rfl known
        | _ => cases secondClass
  · have differ : ¬ first.Same second := mt Zval.Same.phpKind kinds
    rw [iff_false_right differ, Bool.not_eq_true] at tells
    exact .juggled kinds (tells ▸ compared)

/-! Objects of two classes, and an object and null, are told apart. -/

theorem objectCompare_of_classes {first second : Zval} {firstClass secondClass : ValueClass}
    (firstIs : first.valueClass = some firstClass) (secondIs : second.valueClass = some secondClass)
    (differ : firstClass ≠ secondClass) : objectCompare first second = some 1 := by
  have classes : first.valueClass ≠ second.valueClass := by
    rw [firstIs, secondIs, ne_eq, Option.some.injEq]
    exact differ
  unfold objectCompare
  split
  all_goals first
    | rfl
    | exact absurd rfl classes
    | cases firstIs
    | cases secondIs

theorem dataCompare_of_classes {first second : Zval} {firstClass secondClass : ValueClass}
    (firstIs : first.valueClass = some firstClass) (secondIs : second.valueClass = some secondClass)
    (differ : firstClass ≠ secondClass) : dataCompare zendHash first second = some 1 := by
  have compared := objectCompare_of_classes firstIs secondIs differ
  have classes : first.valueClass ≠ second.valueClass := by
    rw [firstIs, secondIs, ne_eq, Option.some.injEq]
    exact differ
  unfold dataCompare
  split
  · exact absurd rfl classes
  · exact absurd rfl classes
  · exact absurd rfl classes
  · unfold valueCompare
    rw [if_neg (not_not.mpr ((zType_of_valueClass firstIs).trans
      (zType_of_valueClass secondIs).symm))]
    split <;> first | exact compared | cases firstIs

theorem Tells.of_classes {first second : Zval} {firstClass secondClass : ValueClass}
    (firstIs : first.valueClass = some firstClass) (secondIs : second.valueClass = some secondClass)
    (differ : firstClass ≠ secondClass) : Tells zendHash zend first second := by
  apply Tells.juggled
  · intro kinds
    have classes := congrArg Prod.fst kinds
    rw [Zval.phpKind, Zval.phpKind, firstIs, secondIs, Option.some.injEq] at classes
    exact differ classes
  · rw [isEqual_objects firstIs (zType_of_valueClass secondIs),
      dataCompare_of_classes firstIs secondIs differ]
    rfl

theorem isEqual_cast {object value : Zval} {valueClass : ValueClass}
    (objectIs : object.valueClass = some valueClass) (plain : value.zType ≠ 8) :
    isEqual zendHash zend object value = zend.castEqual object value ∧
      isEqual zendHash zend value object = zend.castEqual object value := by
  have isObject := zType_of_valueClass objectIs
  constructor
  · cases object with
    | foreign => cases objectIs
    | _ => simp only [isEqual, isObject, plain, if_true, if_false]
  · cases value with
    | foreign => exact absurd rfl plain
    | _ => simp only [isEqual, isObject, plain, if_true, if_false]

theorem Tells.of_null {object : Zval} {valueClass : ValueClass}
    (objectIs : object.valueClass = some valueClass) :
    Tells zendHash zend object .null ∧ Tells zendHash zend .null object := by
  have kinds : object.phpKind ≠ Zval.phpKind .null := by
    intro same
    have classes := congrArg Prod.fst same
    rw [Zval.phpKind, objectIs] at classes
    cases classes
  obtain ⟨left, right⟩ := @isEqual_cast zendHash zend object .null _ objectIs (by decide)
  exact ⟨.juggled kinds left, .juggled kinds.symm right⟩

end PhpDriver
