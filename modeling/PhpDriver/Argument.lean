import PhpDriver.Values

namespace PhpDriver

/-! Values a program passes to the methods of the extension. -/

inductive PhpObject where
  | retryPolicy (policy : Nat)
  | timestampGenerator (generator : Nat)
  | sslOptions (options : Nat)
  | other
deriving DecidableEq

inductive ParameterKey where
  | index (index : BitVec 64)
  | name (name : List UInt8)
deriving DecidableEq

abbrev Arguments :=
  List (ParameterKey × Zval)

inductive PhpArgument where
  | null
  | bool (value : Bool)
  | long (value : BitVec 64)
  | double (bits : BitVec 64)
  | string (bytes : List UInt8)
  | array (elements : Arguments)
  | object (object : PhpObject)

end PhpDriver
