import Gomer.Lib.Jwt

/-! bcrypt as bcryptjs 2.x has it: `hash` and `compare` look at the first 72 bytes of a text.
The digest of these bytes under a salt is a parameter. -/
namespace Bcrypt

structure Hash where
  salt : String
  digest : String
  deriving DecidableEq, Repr

variable (digest : String → List UInt8 → String)

def significant (text : List Char) : List UInt8 := (Jwt.utf8 text).take 72

def hash (salt : String) (text : List Char) : Hash := ⟨salt, digest salt (significant text)⟩

def compare (text : List Char) (stored : Hash) : Bool :=
  digest stored.salt (significant text) == stored.digest

theorem significant_of_start {start text : List Char} (enough : 72 ≤ start.length)
    (begins : start <+: text) : significant text = significant start := by
  obtain ⟨rest, rfl⟩ := begins
  have bytes := Jwt.length_le_utf8 start
  rw [significant, Jwt.utf8_append]
  exact List.take_append_of_le_length (by omega)

/-- Texts that begin alike over 72 characters cannot be told apart. -/
theorem compare_hash_of_common_start {start a b : List Char} (salt : String)
    (enough : 72 ≤ start.length) (first : start <+: a) (second : start <+: b) :
    compare digest a (hash digest salt b) = true := by
  have same : significant a = significant b :=
    (significant_of_start enough first).trans (significant_of_start enough second).symm
  simp [compare, hash, same]

end Bcrypt
