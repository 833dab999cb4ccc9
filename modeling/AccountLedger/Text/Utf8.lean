import AccountLedger.Bytes
/-!
# Texts as bytes

A text is a byte string in UTF-8.  `ofBytes` reads one back and, when the bytes are no text, says
where the first sequence that is none begins and how many of its bytes can still be blamed: none
if the bytes merely end too early.

* `ofBytes_bytes`, `bytes_of_ofBytes`: reading accepts exactly the bytes of texts, and returns
  the text.
-/

namespace AccountLedger.Text

/-- the bytes of a text -/
def bytes (s : String) : Bytes := s.toByteArray.data.toList

/-- Why bytes are no text: the sequence at `index` is wrong in its first `width` bytes, or ends
before it is complete. -/
structure Utf8Fault where
  index : Nat
  width : Option Nat
deriving DecidableEq, Repr

def Utf8Fault.message (f : Utf8Fault) : String :=
  match f.width with
  | some n => s!"invalid utf-8 sequence of {n} bytes from index {f.index}"
  | none => s!"incomplete utf-8 byte sequence from index {f.index}"

/-- How many bytes follow a leading byte and which range the first of them lies in; nothing for
a byte that cannot lead. -/
def followers? (b : UInt8) : Option (Nat × UInt8 × UInt8) :=
  if b < 0x80 then some (0, 0x80, 0xbf)
  else if b < 0xc2 then none
  else if b < 0xe0 then some (1, 0x80, 0xbf)
  else if b = 0xe0 then some (2, 0xa0, 0xbf)
  else if b = 0xed then some (2, 0x80, 0x9f)
  else if b < 0xf0 then some (2, 0x80, 0xbf)
  else if b = 0xf0 then some (3, 0x90, 0xbf)
  else if b < 0xf4 then some (3, 0x80, 0xbf)
  else if b = 0xf4 then some (3, 0x80, 0x8f)
  else none

/-- Walks the bytes.  The sequence being read began at `start`, `seen` of its bytes are read,
`due` are still due, and the next of those lies between `low` and `high`. -/
def utf8FaultFrom (start seen due : Nat) (low high : UInt8) : Bytes → Option Utf8Fault
  | [] => if due = 0 then none else some ⟨start, none⟩
  | b :: rest =>
    match due with
    | 0 =>
      match followers? b with
      | none => some ⟨start + seen, some 1⟩
      | some (n, lo, hi) => utf8FaultFrom (start + seen) 1 n lo hi rest
    | due + 1 =>
      if low ≤ b && b ≤ high then utf8FaultFrom start (seen + 1) due 0x80 0xbf rest
      else some ⟨start, some seen⟩

/-- the first sequence that is no character -/
def utf8Fault? (bs : Bytes) : Option Utf8Fault := utf8FaultFrom 0 0 0 0x80 0xbf bs

/-- the text whose bytes these are -/
def ofBytes (bs : Bytes) : Except Utf8Fault String :=
  if h : (ByteArray.mk bs.toArray).IsValidUTF8 then .ok (String.ofByteArray _ h)
  else .error ((utf8Fault? bs).getD ⟨0, none⟩)

@[simp] theorem ofBytes_bytes (s : String) : ofBytes (bytes s) = .ok s := by
  have h : ByteArray.mk (bytes s).toArray = s.toByteArray := by
    apply ByteArray.ext
    simp [bytes]
  have hv : (ByteArray.mk (bytes s).toArray).IsValidUTF8 := h ▸ s.isValidUTF8
  unfold ofBytes
  rw [dif_pos hv]
  exact congrArg _ (String.toByteArray_inj.1 h)

theorem bytes_of_ofBytes {bs : Bytes} {s : String} (h : ofBytes bs = .ok s) : bytes s = bs := by
  unfold ofBytes at h
  split at h
  · cases h
    simp [bytes]
  · cases h

theorem length_bytes (s : String) : (bytes s).length = s.utf8ByteSize := Array.length_toList

end AccountLedger.Text
