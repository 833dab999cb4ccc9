import AccountLedger.Key
import AccountLedger.Text.Utf8
/-!
# Binary forms

A codec writes the values of a type as bytes and reads one value from the front of a byte string.
It reads back what it wrote, whatever follows, and what it reads is what it would have written: a
value has one form.  Numbers are little-endian, texts and lists come after a 32-bit count, and a
structure is its fields in order, so codecs compose.

* `readAll_eq_ok_iff`: a byte string is the form of a value, with nothing missing and nothing left
  over, exactly when the codec writes it.
-/

namespace AccountLedger

/-- why bytes are not the form of a value -/
inductive ReadFault where
  | endOfInput
  | trailing
  | badFlag (byte : UInt8)
  | badTag (tag : UInt32)
  | badText (fault : Text.Utf8Fault)
deriving DecidableEq, Repr

def ReadFault.message : ReadFault → String
  | .endOfInput => "Unexpected length of input"
  | .trailing => "Not all bytes read"
  | .badFlag byte => s!"Invalid bool representation: {byte.toNat}"
  | .badTag tag => s!"Invalid tag: {tag.toNat}"
  | .badText fault => fault.message

/-- a value with a rest of the input, or a fault -/
abbrev Read (α : Type) := Except ReadFault (α × Bytes)

structure Codec (α : Type) where
  write : α → Bytes
  read : Bytes → Read α
  read_write : ∀ a rest, read (write a ++ rest) = .ok (a, rest)
  write_of_read : ∀ bs a rest, read bs = .ok (a, rest) → bs = write a ++ rest

namespace Codec

variable {α β : Type}

/-! ## whole byte strings -/

/-- the value that the whole byte string is the form of -/
def readAll (c : Codec α) (bs : Bytes) : Except ReadFault α :=
  match c.read bs with
  | .ok (a, []) => .ok a
  | .ok (_, _ :: _) => .error .trailing
  | .error fault => .error fault

theorem read_write_nil (c : Codec α) (a : α) : c.read (c.write a) = .ok (a, []) := by
  have h := c.read_write a []
  rwa [List.append_nil] at h

theorem readAll_eq_ok_iff (c : Codec α) {bs : Bytes} {a : α} :
    c.readAll bs = .ok a ↔ bs = c.write a := by
  constructor
  · intro h
    unfold readAll at h
    split at h
    · rename_i hr
      cases h
      simpa using c.write_of_read _ _ _ hr
    · cases h
    · cases h
  · rintro rfl
    simp [readAll, read_write_nil]

theorem write_inj (c : Codec α) {a b : α} (h : c.write a = c.write b) : a = b := by
  have ha := c.read_write_nil a
  rw [h, c.read_write_nil] at ha
  cases ha; rfl

/-! ## change of type -/

/-- the codec of a type whose values are those of another type in other clothes -/
def iso (c : Codec β) (f : β → α) (g : α → β) (fg : ∀ a, f (g a) = a) (gf : ∀ b, g (f b) = b) :
    Codec α where
  write a := c.write (g a)
  read bs := (c.read bs).map fun p => (f p.1, p.2)
  read_write a rest := by simp [c.read_write, Except.map, fg]
  write_of_read bs a rest h := by
    cases hr : c.read bs with
    | error e => simp [hr, Except.map] at h
    | ok p =>
      simp only [hr, Except.map, Except.ok.injEq, Prod.mk.injEq] at h
      obtain ⟨rfl, rfl⟩ := h
      rw [gf]
      exact c.write_of_read _ _ _ hr

/-- the codec of a part of a type: writing embeds the part, reading refuses all else -/
def refine (c : Codec β) (select : β → Except ReadFault α) (embed : α → β)
    (select_embed : ∀ a, select (embed a) = .ok a)
    (embed_of_select : ∀ b a, select b = .ok a → embed a = b) : Codec α where
  write a := c.write (embed a)
  read bs :=
    match c.read bs with
    | .error fault => .error fault
    | .ok (b, rest) => (select b).map fun a => (a, rest)
  read_write a rest := by simp [c.read_write, select_embed, Except.map]
  write_of_read bs a rest h := by
    split at h
    · cases h
    · rename_i b tail hc
      cases hs : select b with
      | error fault => simp [hs, Except.map] at h
      | ok a' =>
        simp only [hs, Except.map, Except.ok.injEq, Prod.mk.injEq] at h
        obtain ⟨rfl, rfl⟩ := h
        rw [embed_of_select _ _ hs]
        exact c.write_of_read _ _ _ hc

/-! ## plain values -/

/-- nothing at all -/
def unit : Codec Unit where
  write _ := []
  read bs := .ok ((), bs)
  read_write _ _ := rfl
  write_of_read bs a rest h := by cases h; rfl

/-- the first `n` bytes of the input and its rest -/
def split (n : Nat) (bs : Bytes) : Read Bytes :=
  if n ≤ bs.length then .ok (bs.take n, bs.drop n) else .error .endOfInput

theorem split_append (bs rest : Bytes) : split bs.length (bs ++ rest) = .ok (bs, rest) := by
  simp [split]

theorem split_eq_ok {n : Nat} {bs front rest : Bytes} (h : split n bs = .ok (front, rest)) :
    bs = front ++ rest ∧ front.length = n := by
  unfold split at h
  split at h
  · rename_i hn
    cases h
    simp [hn]
  · cases h

/-- a byte string of known length, as it is -/
def fixed (n : Nat) : Codec { bs : Bytes // bs.length = n } where
  write b := b.1
  read bs :=
    match h : split n bs with
    | .ok (front, rest) => .ok (⟨front, (split_eq_ok h).2⟩, rest)
    | .error fault => .error fault
  read_write b rest := by
    have hs : split n (b.1 ++ rest) = .ok (b.1, rest) := by
      have := split_append b.1 rest
      rwa [b.2] at this
    split
    · rename_i h
      rw [hs] at h
      cases h; rfl
    · rename_i h
      rw [hs] at h
      cases h
  write_of_read bs b rest h := by
    split at h
    · rename_i hs
      cases h
      exact (split_eq_ok hs).1
    · cases h

def key : Codec Key :=
  (fixed 32).iso (fun b => ⟨b.1, b.2⟩) (fun k => ⟨k.bytes, k.length_bytes⟩)
    (fun _ => rfl) (fun _ => rfl)

def byte : Codec UInt8 where
  write b := [b]
  read
    | [] => .error .endOfInput
    | b :: rest => .ok (b, rest)
  read_write _ _ := rfl
  write_of_read bs a rest h := by
    cases bs with
    | nil => cases h
    | cons b tail => cases h; rfl

/-- a 32-bit count -/
def count : Codec UInt32 :=
  (fixed 4).iso (fun b => UInt32.ofNat (Bytes.value b.1))
    (fun n => ⟨Bytes.little 4 n.toNat, Bytes.length_little _ _⟩)
    (fun n => by simp [Bytes.value_little_of_lt (show n.toNat < Bytes.limit 4 from n.toNat_lt)])
    (fun b => by
      apply Subtype.ext
      have h := Bytes.value_lt b.1
      have hl := Bytes.little_value b.1
      rw [b.2] at h hl
      change Bytes.little 4 (UInt32.ofNat (Bytes.value b.1)).toNat = b.1
      rw [UInt32.toNat_ofNat_of_lt' h, hl])

/-- a 64-bit amount -/
def amount : Codec UInt64 :=
  (fixed 8).iso (fun b => UInt64.ofNat (Bytes.value b.1))
    (fun n => ⟨Bytes.little 8 n.toNat, Bytes.length_little _ _⟩)
    (fun n => by simp [Bytes.value_little_of_lt (show n.toNat < Bytes.limit 8 from n.toNat_lt)])
    (fun b => by
      apply Subtype.ext
      have h := Bytes.value_lt b.1
      have hl := Bytes.little_value b.1
      rw [b.2] at h hl
      change Bytes.little 8 (UInt64.ofNat (Bytes.value b.1)).toNat = b.1
      rw [UInt64.toNat_ofNat_of_lt' h, hl])

/-- one byte, zero or one -/
def flag : Codec Bool where
  write b := [if b then 1 else 0]
  read
    | [] => .error .endOfInput
    | b :: rest =>
      if b = 0 then .ok (false, rest) else if b = 1 then .ok (true, rest) else .error (.badFlag b)
  read_write b rest := by cases b <;> rfl
  write_of_read bs a rest h := by
    cases bs with
    | nil => cases h
    | cons b tail =>
      simp only at h
      split at h
      · rename_i hb
        cases h
        rw [hb]; rfl
      · split at h
        · rename_i hb
          cases h
          rw [hb]; rfl
        · cases h

/-- a value, or none, after a byte that tells which -/
def option (c : Codec α) : Codec (Option α) where
  write
    | none => [0]
    | some a => 1 :: c.write a
  read
    | [] => .error .endOfInput
    | b :: rest =>
      if b = 0 then .ok (none, rest)
      else if b = 1 then (c.read rest).map fun p => (some p.1, p.2)
      else .error (.badFlag b)
  read_write a rest := by
    cases a with
    | none => rfl
    | some a => simp [c.read_write, Except.map]
  write_of_read bs a rest h := by
    cases bs with
    | nil => cases h
    | cons b tail =>
      simp only at h
      split at h
      · rename_i hb
        cases h
        rw [hb]; rfl
      · split at h
        · rename_i hb
          cases hr : c.read tail with
          | error fault => simp [hr, Except.map] at h
          | ok p =>
            simp only [hr, Except.map, Except.ok.injEq, Prod.mk.injEq] at h
            obtain ⟨rfl, rfl⟩ := h
            rw [hb, c.write_of_read _ _ _ hr]; rfl
        · cases h

/-! ## sequences of fields -/

/-- one value after another -/
def pair (c : Codec α) (d : Codec β) : Codec (α × β) where
  write p := c.write p.1 ++ d.write p.2
  read bs :=
    match c.read bs with
    | .error fault => .error fault
    | .ok (a, rest) =>
      match d.read rest with
      | .error fault => .error fault
      | .ok (b, rest) => .ok ((a, b), rest)
  read_write p rest := by simp [List.append_assoc, c.read_write, d.read_write]
  write_of_read bs p rest h := by
    split at h
    · cases h
    · rename_i hc
      split at h
      · cases h
      · rename_i hd
        cases h
        rw [c.write_of_read _ _ _ hc, d.write_of_read _ _ _ hd, List.append_assoc]

/-! ## texts and lists behind a count -/

end Codec

/-- a text whose size fits a 32-bit count -/
structure ShortText where
  text : String
  size_lt : (Text.bytes text).length < UInt32.size
deriving DecidableEq

/-- a list whose length fits a 32-bit count -/
structure ShortList (α : Type) where
  items : List α
  length_lt : items.length < UInt32.size

def ShortText.ofString? (s : String) : Option ShortText :=
  if h : (Text.bytes s).length < UInt32.size then some ⟨s, h⟩ else none

def ShortList.ofList? {α : Type} (l : List α) : Option (ShortList α) :=
  if h : l.length < UInt32.size then some ⟨l, h⟩ else none

namespace Codec

variable {α : Type}

theorem toNat_ofNat_count {n : Nat} (h : n < UInt32.size) : (UInt32.ofNat n).toNat = n := by
  rw [UInt32.toNat_ofNat_of_lt' h]

/-- a text after the count of its bytes -/
def text : Codec ShortText where
  write t := count.write (UInt32.ofNat (Text.bytes t.text).length) ++ Text.bytes t.text
  read bs :=
    match count.read bs with
    | .error fault => .error fault
    | .ok (n, rest) =>
      match split n.toNat rest with
      | .error fault => .error fault
      | .ok (front, rest) =>
        match Text.ofBytes front with
        | .error fault => .error (.badText fault)
        | .ok s =>
          if h : (Text.bytes s).length < UInt32.size then .ok (⟨s, h⟩, rest) else .error .endOfInput
  read_write t rest := by
    have h : (Text.bytes t.text).length < UInt32.size := t.size_lt
    simp only [List.append_assoc, count.read_write, toNat_ofNat_count h, split_append,
      Text.ofBytes_bytes, h, dif_pos]
  write_of_read bs t rest h := by
    split at h
    · cases h
    · rename_i n tail hn
      split at h
      · cases h
      · rename_i front rest' hs
        split at h
        · cases h
        · rename_i s hb
          split at h
          · cases h
            obtain ⟨rfl, hl⟩ := split_eq_ok hs
            have hbytes := Text.bytes_of_ofBytes hb
            simp only [hbytes, hl, UInt32.ofNat_toNat, List.append_assoc]
            exact count.write_of_read _ _ _ hn
          · cases h

/-- `n` values, one after another -/
def readMany (c : Codec α) : Nat → Bytes → Read (List α)
  | 0, bs => .ok ([], bs)
  | n + 1, bs =>
    match c.read bs with
    | .error fault => .error fault
    | .ok (a, rest) =>
      match readMany c n rest with
      | .error fault => .error fault
      | .ok (as, rest) => .ok (a :: as, rest)

theorem readMany_write (c : Codec α) (as : List α) (rest : Bytes) :
    readMany c as.length (as.flatMap c.write ++ rest) = .ok (as, rest) := by
  induction as with
  | nil => rfl
  | cons a as ih => simp [readMany, List.append_assoc, c.read_write, ih]

theorem write_of_readMany (c : Codec α) {n : Nat} {bs rest : Bytes} {as : List α}
    (h : readMany c n bs = .ok (as, rest)) : bs = as.flatMap c.write ++ rest ∧ as.length = n := by
  induction n generalizing bs as with
  | zero => cases h; simp
  | succ n ih =>
    simp only [readMany] at h
    split at h
    · cases h
    · rename_i a tail hc
      split at h
      · cases h
      · rename_i as' rest' hm
        cases h
        obtain ⟨rfl, hl⟩ := ih hm
        exact ⟨by simp [c.write_of_read _ _ _ hc], by simp [hl]⟩

/-- a list after the count of its items -/
def list (c : Codec α) : Codec (ShortList α) where
  write l := count.write (UInt32.ofNat l.items.length) ++ l.items.flatMap c.write
  read bs :=
    match count.read bs with
    | .error fault => .error fault
    | .ok (n, rest) =>
      match h : readMany c n.toNat rest with
      | .error fault => .error fault
      | .ok (as, rest) =>
        .ok (⟨as, (write_of_readMany c h).2 ▸ n.toNat_lt⟩, rest)
  read_write l rest := by
    have hm := readMany_write c l.items rest
    have hn := toNat_ofNat_count l.length_lt
    simp only [List.append_assoc, count.read_write]
    split
    · rename_i h
      rw [hn, hm] at h
      cases h
    · rename_i h
      rw [hn, hm] at h
      cases h; rfl
  write_of_read bs l rest h := by
    split at h
    · cases h
    · rename_i n tail hn
      split at h
      · cases h
      · rename_i as rest' hm
        cases h
        obtain ⟨rfl, hl⟩ := write_of_readMany c hm
        simp only [hl, UInt32.ofNat_toNat, List.append_assoc]
        exact count.write_of_read _ _ _ hn

end Codec

end AccountLedger
