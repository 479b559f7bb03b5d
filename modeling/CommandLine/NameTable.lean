import CommandLine.Memory

/-!
# Tables of names

A table numbers distinct names in the order in which they are inserted. It is a hash table: a
name lives in the chain of the bucket that its 32-bit FNV-1a hash selects, so a search reads one
chain only. A chain is kept in insertion order.
-/

namespace CommandLine

/-- The 32-bit FNV-1a hash of the bytes of a name. -/
def fnv1a (name : String) : UInt32 :=
  name.toUTF8.data.toList.foldl (fun hash byte => (hash ^^^ byte.toUInt32) * 16777619) 0x811c9dc5

/-- The bucket of a name among `count` buckets: the low ten bits of its hash, reduced. A table
without buckets counts as one with a single bucket. -/
def bucketOf (name : String) (count : Nat) : Nat :=
  let hash := fnv1a name
  (hash ^^^ ((hash >>> 10) <<< 10)).toNat % max count 1

theorem bucketOf_lt_max (name : String) (count : Nat) : bucketOf name count < max count 1 :=
  Nat.mod_lt _ (by omega)

theorem bucketOf_lt {name : String} {count : Nat} (h : 0 < count) :
    bucketOf name count < count := by
  have := bucketOf_lt_max name count
  omega

/-- A table of distinct names with their numbers. -/
structure NameTable where
  buckets : Array (List (String × Nat))
  size : Nat
  buckets_pos : 0 < buckets.size

namespace NameTable

/-- The table without names over a number of buckets, at least one. -/
def empty (count : Nat) : NameTable where
  buckets := Array.replicate (max count 1) []
  size := 0
  buckets_pos := by simp only [Array.size_replicate]; omega

/-- The bytes of a bucket: where its chain begins. -/
def bucketBytes : Nat := 8

/-- The table without names, with room for its buckets. -/
def withRoom (count : Nat) : Except Stop NameTable :=
  (askRoom bucketBytes (max count 1)).map fun _ => empty count

/-- The number of buckets. -/
def bucketCount (t : NameTable) : Nat := t.buckets.size

/-- Whether no name was inserted. -/
def isEmpty (t : NameTable) : Bool := t.size == 0

/-- The bucket in which a name belongs. -/
def bucket (t : NameTable) (name : String) : Nat := bucketOf name t.buckets.size

theorem bucket_lt (t : NameTable) (name : String) : t.bucket name < t.buckets.size :=
  bucketOf_lt t.buckets_pos

/-- The entries that share the bucket of a name. -/
def chain (t : NameTable) (name : String) : List (String × Nat) :=
  have := t.bucket_lt name
  t.buckets[t.bucket name]

/-- The number of a name. -/
def find? (t : NameTable) (name : String) : Option Nat :=
  (t.chain name).lookup name

/-- Inserts a name and numbers it; a name that is present is refused. -/
def insert? (t : NameTable) (name : String) : Option (Nat × NameTable) :=
  if (t.find? name).isSome then none
  else some (t.size, {
    buckets := t.buckets.modify (t.bucket name) (· ++ [(name, t.size)])
    size := t.size + 1
    buckets_pos := by simpa using t.buckets_pos })

/-- The number of names in the bucket of a name. -/
def chainLength (t : NameTable) (name : String) : Nat := (t.chain name).length

/-- Forgets every name and keeps the buckets. -/
def clear (t : NameTable) : NameTable := empty t.bucketCount

end NameTable

end CommandLine
