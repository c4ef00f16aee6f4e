import JsonRpc.Keyed
import JsonRpc.Text.Blank
import JsonRpc.Text.Numeral

/-!
Header blocks: texts under keys that are the same up to the case of ASCII letters. Keys are kept
in one canonical spelling and in ascending order.
-/

namespace JsonRpc

def canonicalKey.go : (upper : Bool) → List Char → List Char
  | _, [] => []
  | upper, c :: cs => (if upper then c.toUpper else c.toLower) :: go (c = '-') cs

def canonicalKey (key : String) : String :=
  String.ofList (canonicalKey.go true key.toList)

def contentLengthKey : String := "Content-Length"

structure Headers where
  entries : List (String × String)
  ascending : Keyed.Ascending entries

namespace Headers

def empty : Headers :=
  ⟨[], Keyed.ascending_nil⟩

instance : Inhabited Headers := ⟨empty⟩

instance : DecidableEq Headers := fun a b =>
  if h : a.entries = b.entries then
    isTrue (by cases a; cases b; cases h; rfl)
  else
    isFalse (fun e => h (e ▸ rfl))

def insert (h : Headers) (key value : String) : Headers :=
  ⟨Keyed.insert (canonicalKey key) value h.entries, Keyed.ascending_insert _ _ h.ascending⟩

def get? (h : Headers) (key : String) : Option String :=
  Keyed.find? (canonicalKey key) h.entries

def remove (h : Headers) (key : String) : Headers :=
  ⟨Keyed.erase (canonicalKey key) h.entries, Keyed.ascending_erase _ h.ascending⟩

def size (h : Headers) : Nat :=
  h.entries.length

def lengthBound : Nat := 1 <<< 64

def contentLength? (h : Headers) : Option Nat :=
  (h.get? contentLengthKey).bind fun value =>
    Text.ofUnsigned? lengthBound (Text.trimBlank value.toList)

def setContentLength (h : Headers) (length : Nat) : Headers :=
  h.insert contentLengthKey (Text.decimal length)

inductive Operation where
  | insert (key value : String)
  | get (key : String)
  | remove (key : String)
  | setContentLength (length : UInt64)

def perform (h : Headers) : Operation → Option String × Headers
  | .insert key value => (h.get? key, h.insert key value)
  | .get key => (h.get? key, h)
  | .remove key => (h.get? key, h.remove key)
  | .setContentLength length => (none, h.setContentLength length.toNat)

end Headers

end JsonRpc
