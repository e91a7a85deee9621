import LoadingCache.Basic

/-!
# The default value cloner

`DefaultValueCloner[V]()` looks at the zero value of `V`: a `Clone() V` method gives the
cloner, else a `DeepCopy() V` method, else the kind of its dynamic type does, and only the
kinds of plain values (numbers, strings, `bool`, `uintptr`, `unsafe.Pointer`) have one, the
`NopValueCloner`.  Any other kind panics, and so does an interface type, whose zero value is
`nil` and has no type for `reflect.ValueOf(v).Type()` to return.

`NewInMemoryStorage` asks for it in `defaultOptions`, before any option, which is modelled with
the storage's options.
-/

namespace LoadingCache

/-- `reflect.Kind`. -/
inductive ReflectKind where
  | invalid | bool | int | int8 | int16 | int32 | int64
  | uint | uint8 | uint16 | uint32 | uint64 | uintptr
  | float32 | float64 | complex64 | complex128
  | array | chan | func | interface | map | pointer | slice | string | struct | unsafePointer
  deriving DecidableEq, Repr

/-- The kinds `defaultValueClonerReflect` gives a `NopValueCloner`. -/
def ReflectKind.isPlain : ReflectKind → Bool
  | .bool | .int | .int8 | .int16 | .int32 | .int64
  | .uint | .uint8 | .uint16 | .uint32 | .uint64 | .uintptr
  | .float32 | .float64 | .complex64 | .complex128 | .string | .unsafePointer => true
  | _ => false

/-- What the type switch of `defaultValueClonerAny` finds on the zero value of `V`: a
`Clone() V` method (tried first), a `DeepCopy() V` method, or neither, with the kind of the
value's dynamic type, `none` for the `nil` zero value of an interface type. -/
inductive ValueType (V : Type) where
  | cloner (clone : V → V)
  | deepCopier (deepCopy : V → V)
  | plain (kind : Option ReflectKind)

variable {V : Type}

/-- `NopValueCloner.CloneValue`. -/
def nopValueCloner (v : V) : V := v

/-- `defaultValueClonerReflect`: the cloner, or the message it panics with. -/
def defaultValueClonerReflect (kind : ReflectKind) : Except String (V → V) :=
  if kind.isPlain then .ok nopValueCloner
  else .error "value type does not have Clone or DeepCopy method"

/-- `defaultValueClonerAny` on the zero value of `V`, which is `DefaultValueCloner[V]()`; a
`nil` interface makes `reflect.ValueOf(v).Type()` panic. -/
def defaultValueClonerAny : ValueType V → Except String (V → V)
  | .cloner clone => .ok clone
  | .deepCopier deepCopy => .ok deepCopy
  | .plain (some kind) => defaultValueClonerReflect kind
  | .plain none => .error "reflect: call of reflect.Value.Type on zero Value"

def defaultValueCloner (valueType : ValueType V) : Except String (V → V) :=
  defaultValueClonerAny valueType

end LoadingCache
