/-!
What a lookup asks for.

* `Lookup`: a bucket, with or without a key in it.
* `Lookup.text`: the text that is hashed for it, the bucket followed by the key.
-/

namespace Federation

/-- Data to be found: a bucket as a whole, or one key of it. -/
structure Lookup where
  bucket : String
  key? : Option String
deriving DecidableEq

namespace Lookup

/-- A bucket as a whole. -/
def ofBucket (bucket : String) : Lookup := ⟨bucket, none⟩

/-- One key of a bucket. -/
def ofKey (bucket key : String) : Lookup := ⟨bucket, some key⟩

/-- The text to be hashed: the bucket and the key with nothing between them. -/
def text (l : Lookup) : String := l.bucket ++ l.key?.getD ""

end Lookup

end Federation
