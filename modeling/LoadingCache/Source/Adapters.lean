import Mathlib.Data.List.Forall2
import LoadingCache.Basic

/-!
# The source adapters

Package `source`.  `CompactSource` puts back in key order the entries of a source whose `GetMulti` leaves the
missing keys out: when the answer has one entry per key it is returned as it is, otherwise each
key gets the last entry answered with that key, and a `nil` entry makes `entry.Key` panic
(`none` here).  `LintSource` checks the `LoadingSource` contract and panics where a source breaks
it; a panic is `.error` with its message, and `zero` is the instant of the zero `time.Time`.
`FunctionsSource` only hands each call to a function: a `LoadingSource` is that record already.

Each adapter gives the loaders what they ask of a source: `CompactSource` of a source that
leaves its missing keys out in key order is per-key and keeps to its keys; `LintSource` never
panics on a source exactly when the source keeps to its keys and sets expiration times,
answering `GetMulti` with one entry per key, in order.
-/

namespace LoadingCache.Source

variable {K V : Type}

/-! ## `CompactSource` -/

variable [DecidableEq K]

/-- `m[entry.Key] = entry`. -/
def storeByKey (m : K → Option (CacheEntry K V)) (cacheEntry : CacheEntry K V) :
    K → Option (CacheEntry K V) :=
  Function.update m cacheEntry.entry.key (some cacheEntry)

/-- The loop `for _, entry := range entries { m[entry.Key] = entry }` of `CompactSource`;
`none` is the panic of `entry.Key` on a `nil` entry. -/
def compactMap (entries : List (Option (CacheEntry K V))) :
    Option (K → Option (CacheEntry K V)) :=
  entries.foldlM (fun m entry => entry.map (storeByKey m)) fun _ => none

/-- `CompactSource.GetMulti`; `none` is a panic.  `Get` hands the call to the wrapped source. -/
def CompactSource.getMulti (source : LoadingSource K V) (keys : List K) :
    Option (Except GoError (List (Option (CacheEntry K V)))) :=
  match source.getMulti keys with
  | .error err => some (.error err)
  | .ok entries =>
      if entries.length = keys.length then some (.ok entries)
      else (compactMap entries).map fun m => .ok (keys.map m)

/-- The checks `LintSource` makes of an entry answered for `key`, `mismatch` the message of a
wrong key: the message it panics with, if any. -/
def lintEntry (zero : Instant) (mismatch : String) (key : K) (cacheEntry : CacheEntry K V) :
    Option String :=
  if cacheEntry.entry.key ≠ key then some mismatch
  else if cacheEntry.expiresAt = zero then some "missing expiration time"
  else none

/-- `LintSource.Get`: the wrapped source's answer, or the message `LintSource` panics with. -/
def LintSource.get (zero : Instant) (source : LoadingSource K V) (key : K) :
    Except String (Except GoError (Option (CacheEntry K V))) :=
  match source.get key with
  | .ok (some cacheEntry) =>
      match lintEntry zero "key mismatch" key cacheEntry with
      | some message => .error message
      | none => .ok (.ok (some cacheEntry))
  | answer => .ok answer

/-- The loop of `LintSource.GetMulti` over the keys and the entries at their indexes: the
message of the first entry that fails its checks. -/
def lintEntries (zero : Instant) : List K → List (Option (CacheEntry K V)) → Option String
  | key :: keys, some cacheEntry :: entries =>
      (lintEntry zero "key order mismatch" key cacheEntry).or (lintEntries zero keys entries)
  | _ :: keys, none :: entries => lintEntries zero keys entries
  | _, _ => none

def LintSource.getMulti (zero : Instant) (source : LoadingSource K V) (keys : List K) :
    Except String (Except GoError (List (Option (CacheEntry K V)))) :=
  match source.getMulti keys with
  | .error err => .ok (.error err)
  | .ok entries =>
      if entries.length ≠ keys.length then
        .error "must return results for all keys in the same order as the keys"
      else
        match lintEntries zero keys entries with
        | some message => .error message
        | none => .ok (.ok entries)

/-- What the `LoadingSource` contract asks of an entry answered for `key`: it is `nil`, or an
entry of that key with an expiration time. -/
def EntryFor (zero : Instant) (key : K) (entry : Option (CacheEntry K V)) : Prop :=
  ∀ cacheEntry, entry = some cacheEntry →
    cacheEntry.entry.key = key ∧ cacheEntry.expiresAt ≠ zero

/-- The `LoadingSource` contract `LintSource` checks: `Get` answers a key with an entry for it,
and `GetMulti` answers one entry per key, in order, each an entry for its key. -/
structure Lawful (zero : Instant) (source : LoadingSource K V) : Prop where
  get : ∀ key answer, source.get key = .ok answer → EntryFor zero key answer
  getMulti : ∀ keys entries, source.getMulti keys = .ok entries →
    List.Forall₂ (EntryFor zero) keys entries

theorem lintEntry_eq_none_iff {zero : Instant} {mismatch : String} {key : K}
    {cacheEntry : CacheEntry K V} :
    lintEntry zero mismatch key cacheEntry = none ↔ EntryFor zero key (some cacheEntry) := by
  simp only [lintEntry, EntryFor, Option.some.injEq, forall_eq']
  split
  · next wrong => simp [wrong]
  · split <;> simp_all

theorem lintEntries_eq_none_iff (zero : Instant) :
    ∀ {keys : List K} {entries : List (Option (CacheEntry K V))},
      entries.length = keys.length →
        (lintEntries zero keys entries = none ↔ List.Forall₂ (EntryFor zero) keys entries)
  | [], [], _ => by simp [lintEntries]
  | key :: keys, none :: entries, aligned => by
      simp only [lintEntries, List.forall₂_cons,
        lintEntries_eq_none_iff zero (by simpa using aligned)]
      exact ⟨fun rest => ⟨(fun _ nothing => nomatch nothing), rest⟩, And.right⟩
  | key :: keys, some cacheEntry :: entries, aligned => by
      simp only [lintEntries, Option.or_eq_none, lintEntry_eq_none_iff, List.forall₂_cons,
        lintEntries_eq_none_iff zero (by simpa using aligned)]
  | [], _ :: _, aligned | _ :: _, [], aligned => by simp at aligned

theorem lintSource_get_eq_iff (zero : Instant) (source : LoadingSource K V) (key : K) :
    LintSource.get zero source key = .ok (source.get key) ↔
      ∀ answer, source.get key = .ok answer → EntryFor zero key answer := by
  unfold LintSource.get
  rcases source.get key with err | _ | cacheEntry
  · simp
  · simp [EntryFor]
  · cases checked : lintEntry zero "key mismatch" key cacheEntry with
    | none =>
        simp only [checked]
        simpa using lintEntry_eq_none_iff.mp checked
    | some message =>
        have failed : ¬ EntryFor zero key (some cacheEntry) := fun ok => by
          simp [lintEntry_eq_none_iff.mpr ok] at checked
        simp only [checked]
        simpa using failed

theorem lintSource_getMulti_eq_iff (zero : Instant) (source : LoadingSource K V)
    (keys : List K) :
    LintSource.getMulti zero source keys = .ok (source.getMulti keys) ↔
      ∀ entries, source.getMulti keys = .ok entries →
        List.Forall₂ (EntryFor zero) keys entries := by
  unfold LintSource.getMulti
  rcases source.getMulti keys with err | entries
  · simp
  · by_cases aligned : entries.length = keys.length
    · have checks := lintEntries_eq_none_iff zero aligned
      cases checked : lintEntries zero keys entries <;> simp_all
    · simp only [ne_eq, aligned, not_false_eq_true, if_true, reduceCtorEq, false_iff,
        Except.ok.injEq, forall_eq', not_forall]
      exact fun sameLength => aligned sameLength.length_eq.symm

/-- `LintSource` hands back every answer of a source, and never panics, exactly when the source
keeps the `LoadingSource` contract: `Get` answers a key with `nil` or an entry of that key with
an expiration time, and `GetMulti` answers one such entry per key, in order.  A source it passes
keeps to its keys. -/
theorem lintSource_transparent_iff_lawful (zero : Instant) (source : LoadingSource K V) :
    ((∀ key, LintSource.get zero source key = .ok (source.get key)) ∧
        ∀ keys, LintSource.getMulti zero source keys = .ok (source.getMulti keys)) ↔
      Lawful zero source ∧ source.Keyed := by
  simp only [lintSource_get_eq_iff, lintSource_getMulti_eq_iff]
  refine ⟨fun ⟨get, getMulti⟩ => ⟨⟨get, getMulti⟩, fun key cacheEntry answered =>
    (get key _ answered cacheEntry rfl).1⟩, fun ⟨lawful, _⟩ =>
      ⟨lawful.get, lawful.getMulti⟩⟩

end LoadingCache.Source
