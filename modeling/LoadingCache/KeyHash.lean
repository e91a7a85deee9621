import Mathlib.Tactic.NormNum
import LoadingCache.Basic

/-!
# The default key hash of `string` and `float64` keys

`keyhash.createKeyHashAny` for `float64` hashes the big-endian bytes of the key's IEEE word, so
`+0.0` and `-0.0`, which Go's `==` identifies, hash apart.  For `string`, the key's bytes are written into a `bytes.Buffer`
taken from `bytesBufferPool`, and the buffer's contents are hashed by `hash64`, 64-bit FNV-1a
(an `int` is 64 bits wide here).  A Go `string` is a sequence of bytes.

A `resettablePool` hands out a pooled object, or `New()` when it holds none, which the runtime
may make it at any time; `Put` resets an object before pooling it.  `bytesBufferPool.New` is
`bytes.NewBuffer(make([]byte, 4096))`, a buffer whose contents are 4096 zero bytes, while a
reset buffer is empty.  The objects of `hash64BufferPool` start at the offset basis whether
new or reset, so `hash64` is a function of its bytes.
-/

namespace LoadingCache.KeyHash

/-- The 64-bit FNV-1a offset basis of `hash/fnv`. -/
def offset64 : Nat := 14695981039346656037

/-- The 64-bit FNV prime of `hash/fnv`. -/
def prime64 : Nat := 1099511628211

/-- One byte of FNV-1a on a 64-bit state: xor the byte in, then multiply modulo `2^64`. -/
def fnvStep (state : Nat) (b : UInt8) : Nat := (state ^^^ b.toNat) * prime64 % 2 ^ 64

/-- `fnv.New64a()`, `Write(bytes)`, `Sum64()`. -/
def sum64a (bytes : List UInt8) : Nat := bytes.foldl fnvStep offset64

/-- `int(x)` for a `uint64` `x` on a 64-bit platform. -/
def toInt64 (x : Nat) : Int := if x < 2 ^ 63 then x else (x : Int) - 2 ^ 64

def hash64 (bytes : List UInt8) : Int := toInt64 (sum64a bytes)

/-- `binary.BigEndian.PutUint64`. -/
def putUint64 (x : UInt64) : List UInt8 :=
  ([56, 48, 40, 32, 24, 16, 8, 0] : List UInt64).map fun shift => (x >>> shift).toUInt8

/-- The `float64` case of `createKeyHashAny`: `hash` of the big-endian bytes of
`math.Float64bits(v)`. -/
def hashFloat64 (v : GoFloat64) : Int := hash64 (putUint64 v.bits)

/-- `resettablePool`, by its `New` and the `Reset` that `Put` applies. -/
structure ResettablePool (H : Type) where
  new : H
  reset : H → H

namespace ResettablePool

variable {H : Type} (pool : ResettablePool H)

/-- `Get` from the pooled objects `pooled`. -/
def get : List H → H × List H
  | [] => (pool.new, [])
  | h :: pooled => (h, pooled)

/-- `Put`: reset, then pool. -/
def put (pooled : List H) (h : H) : List H := pool.reset h :: pooled

end ResettablePool

/-- `bytesBufferPool`: a buffer is its unread contents. -/
def bytesBufferPool : ResettablePool (List UInt8) := ⟨List.replicate 4096 0, fun _ => []⟩

/-- The `string` case of `createKeyHashAny` with `bytesBufferPool` holding `pooled`: the hash,
and the pool after the deferred `Put`. -/
def hashString (pooled : List (List UInt8)) (s : List UInt8) : Int × List (List UInt8) :=
  let (b, pooled) := bytesBufferPool.get pooled
  let b := b ++ s
  (hash64 b, bytesBufferPool.put pooled b)

/-- Every buffer `Put` pools is empty. -/
def AllReset (pooled : List (List UInt8)) : Prop := ∀ b ∈ pooled, b = []

theorem hashString_of_reused {b : List UInt8} {rest : List (List UInt8)}
    (h : AllReset (b :: rest)) (s : List UInt8) : (hashString (b :: rest) s).1 = hash64 s := by
  show hash64 (b ++ s) = hash64 s
  rw [h b (List.mem_cons_self b rest), List.nil_append]

theorem hashString_of_new (s : List UInt8) :
    (hashString [] s).1 = hash64 (List.replicate 4096 0 ++ s) := by
  simp only [hashString, ResettablePool.get, bytesBufferPool]

theorem foldl_fnvStep_replicate_zero (n state : Nat) (h : state < 2 ^ 64) :
    (List.replicate n 0).foldl fnvStep state = state * prime64 ^ n % 2 ^ 64 := by
  induction n generalizing state with
  | zero =>
      simp only [List.replicate_zero, List.foldl_nil, pow_zero, Nat.mul_one]
      exact (Nat.mod_eq_of_lt h).symm
  | succ n inductionHypothesis =>
      have stepBound : fnvStep state 0 < 2 ^ 64 := Nat.mod_lt _ (Nat.two_pow_pos 64)
      rw [List.replicate_succ, List.foldl_cons, inductionHypothesis _ stepBound]
      simp only [fnvStep, UInt8.toNat_zero, Nat.xor_zero, Nat.mod_mul_mod, pow_succ',
        Nat.mul_assoc]

theorem sum64a_new_buffer_prefix (s : List UInt8) :
    sum64a (List.replicate 4096 0 ++ s) = s.foldl fnvStep 13346994205906133797 := by
  rw [sum64a, List.foldl_append, foldl_fnvStep_replicate_zero _ _ (by norm_num [offset64])]
  norm_num [offset64, prime64]

theorem hashString_new_test :
    (hashString [] [116, 101, 115, 116]).1 = toInt64 0x3bfeed4cdcc96b25 := by
  rw [hashString_of_new, hash64, sum64a_new_buffer_prefix]
  decide

theorem hashString_reused_test :
    (hashString [[]] [116, 101, 115, 116]).1 = toInt64 0xf9e6e6ef197c2b25 :=
  (hashString_of_reused (by simp [AllReset]) _).trans (by decide)

/-- The first hash of the key `"test"` in a process, from a new buffer, is FNV-1a of 4096 zero
bytes and `"test"`, not FNV-1a of `"test"`; the next hash of the same key, from the buffer
the first one reset, is FNV-1a of `"test"`. -/
theorem hashString_test_new_then_reused :
    (hashString [] [116, 101, 115, 116]).1 = toInt64 0x3bfeed4cdcc96b25 ∧
      hash64 [116, 101, 115, 116] = toInt64 0xf9e6e6ef197c2b25 ∧
      (hashString (hashString [] [116, 101, 115, 116]).2 [116, 101, 115, 116]).1 =
        hash64 [116, 101, 115, 116] ∧
      toInt64 0x3bfeed4cdcc96b25 ≠ toInt64 0xf9e6e6ef197c2b25 := by
  have resetPool : (hashString [] [116, 101, 115, 116]).2 = [[]] := rfl
  refine ⟨hashString_new_test, by decide, ?_, by decide⟩
  rw [resetPool]
  exact hashString_of_reused (by simp [AllReset]) _

end LoadingCache.KeyHash
