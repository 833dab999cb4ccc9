import AccountLedger.Proofs.Operation
import AccountLedger.Scenario.Sample
/-!
# Records are read back

A record in the data of an account is its header, its form, and anything behind.  Data that was made
or filled with a record has zeros behind it, whatever was there before, and gives the record back; and
a record that data gives, written over it, changes only what is behind.  A header of eight bytes tells
the schemas apart.

* `Kind.form`, `Kind.write_eq`: the form of the records, field by field;
* `Tag.decode_eq_ok_iff`: which data is a record;
* `Tag.Holds`: data of just one record, as `Tag.encode` and `Handle.save` leave it;
* `record_round_trip`: what was written is read, and what was read is written.
-/

namespace AccountLedger

/-! ## the form of the records -/

namespace Scenario.Kind

/-- The fields of a record in order: keys as they are, amounts as eight bytes, the least significant
first, and a text after its size in four bytes. -/
def form : (k : Kind) → k.Carrier → Bytes
  | memo, m => Bytes.little 8 m.value.toNat ++ Bytes.little 4 (Text.bytes m.note.text).length ++
      Text.bytes m.note.text
  | tally, t => Bytes.little 8 t.value.toNat
  | greeting, g => g.authority.bytes ++ Bytes.little 8 g.count.toNat
  | terms, t => t.initializer.bytes ++ t.deposit.bytes ++ t.receive.bytes ++
      Bytes.little 8 t.offered.toNat ++ Bytes.little 8 t.asked.toNat
  | pool, p => p.creator.bytes ++ p.mintA.bytes ++ p.mintB.bytes ++ p.vaultA.bytes ++
      p.vaultB.bytes ++ p.liquidityMint.bytes

theorem write_eq (k : Kind) (v : k.Carrier) : k.codec.write v = k.form v := by
  cases k with
  | memo =>
    have size : (UInt32.ofNat (Text.bytes v.note.text).length).toNat =
        (Text.bytes v.note.text).length := Codec.toNat_ofNat_count v.note.size_lt
    simp only [form, List.append_assoc]
    rw [← size]
    rfl
  | tally => rfl
  | greeting => rfl
  | terms =>
    simp only [form, List.append_assoc]
    rfl
  | pool =>
    simp only [form, List.append_assoc]
    rfl

end Scenario.Kind

variable {α : Type} {t : Tag} {data filled payload : Bytes} {capacity : Nat}

namespace Tag

/-! ## data that is a record -/

/-- The data of a record is its header and its form, and anything may follow. -/
theorem decode_eq_ok_iff {c : Codec α} {a : α} :
    t.decode c data = .ok a ↔ ∃ tail, data = t.header ++ c.write a ++ tail := by
  constructor
  · intro h
    have front : data.take 8 = t.header := beq_iff_eq.1 (fits_of_decode h)
    rw [decode, check_eq_ok_iff.2 (fits_of_decode h)] at h
    dsimp only at h
    split at h
    · rename_i a' tail hread
      cases h
      refine ⟨tail, ?_⟩
      rw [List.append_assoc, ← c.write_of_read _ _ _ hread, ← front, List.take_append_drop]
    · cases h
  · rintro ⟨tail, rfl⟩
    have fits : t.fits (t.header ++ c.write a ++ tail) = true := by simp [Tag.fits]
    have behind : (t.header ++ c.write a ++ tail).drop 8 = c.write a ++ tail := by
      rw [List.append_assoc, List.drop_left' t.length_header]
    rw [decode, check_eq_ok_iff.2 fits]
    dsimp only
    rw [behind, c.read_write]

/-- Data without the header of a schema is no record of it. -/
theorem decode_ne_ok {c : Codec α} (h : data.length < 8 ∨ data.take 8 ≠ t.header) (a : α) :
    t.decode c data ≠ .ok a := by
  intro hdecode
  have front : data.take 8 = t.header := beq_iff_eq.1 (fits_of_decode hdecode)
  rcases h with short | other
  · have length := congrArg List.length front
    rw [List.length_take, length_header] at length
    omega
  · exact other front

/-! ## data of just one record -/

/-- The data is as long as it should be, holds the header and the form of a record, and is zero behind
them. -/
structure Holds (t : Tag) (form : Bytes) (capacity : Nat) (data : Bytes) : Prop where
  length_eq : data.length = capacity
  data_eq : data = t.header ++ form ++ List.replicate (capacity - (8 + form.length)) 0

theorem holds_image (room : 8 + payload.length ≤ capacity) :
    t.Holds payload capacity (t.image payload capacity) := ⟨length_image room, rfl⟩

theorem Holds.decodes {c : Codec α} {a : α} (holds : t.Holds (c.write a) capacity data) :
    t.decode c data = .ok a := decode_eq_ok_iff.2 ⟨_, holds.data_eq⟩

theorem exists_encode_iff :
    (∃ filled, t.encode payload capacity = .ok filled) ↔
      8 + payload.length ≤ capacity ∧ capacity < allocationLimit := by
  constructor
  · rintro ⟨filled, h⟩
    obtain ⟨room, addressable, -⟩ := encode_eq_ok_iff.1 h
    exact ⟨room, addressable⟩
  · rintro ⟨room, addressable⟩
    exact ⟨_, encode_eq_ok_iff.2 ⟨room, addressable, rfl⟩⟩

theorem holds_of_encode (h : t.encode payload capacity = .ok filled) :
    t.Holds payload capacity filled := by
  obtain ⟨room, -, rfl⟩ := encode_eq_ok_iff.1 h
  exact holds_image room

/-- Of the data that an account held before, its length is all that is left. -/
theorem holds_of_save {program : Key} {h h' : Handle} (saved : h.save program t payload = .ok h') :
    t.Holds payload h.account.data.length h'.account.data := by
  obtain ⟨-, -, -, -, room, rfl⟩ := Handle.save_eq_ok_iff.1 saved
  exact holds_image room

/-- What is read from data has room there, and is at its front already. -/
theorem encode_of_decode {c : Codec α} {a : α} (addressable : data.length < allocationLimit)
    (h : t.decode c data = .ok a) :
    let size := 8 + (c.write a).length
    ∃ filled, t.encode (c.write a) data.length = .ok filled ∧ filled.take size = data.take size ∧
      filled.drop size = List.replicate (data.length - size) 0 := by
  intro size
  obtain ⟨tail, hdata⟩ := decode_eq_ok_iff.1 h
  have length : (t.header ++ c.write a).length = size := by rw [List.length_append, length_header]
  have room : size ≤ data.length := by
    rw [hdata, List.length_append, length]
    exact Nat.le_add_right _ _
  refine ⟨_, encode_eq_ok_iff.2 ⟨room, addressable, rfl⟩, ?_, ?_⟩
  · rw [image, List.take_left' length, hdata, List.take_left' length]
  · rw [image, List.drop_left' length]

end Tag

/-! ## both ways -/

/-- A record of any kind is encoded, under any tag, where there is room and memory for it.  The data
holds it and zeros, as does the data of an account that it is saved to, and gives it back.  Data that
gives a record is encoded again at its length, up to the end of the record as it was and zero behind.
Data that is too short for a header, or has another one, gives none. -/
theorem record_round_trip (k : Scenario.Kind) (t : Tag) (v : k.Carrier) :
    let form := k.form v
    let size := 8 + form.length
    (∀ capacity, (∃ filled, t.encode (k.codec.write v) capacity = .ok filled) ↔
        size ≤ capacity ∧ capacity < allocationLimit) ∧
      (∀ capacity filled, t.encode (k.codec.write v) capacity = .ok filled →
        t.Holds form capacity filled ∧ t.decode k.codec filled = .ok v) ∧
      (∀ (program : Key) (h h' : Handle), h.save program t (k.codec.write v) = .ok h' →
        t.Holds form h.account.data.length h'.account.data ∧
          t.decode k.codec h'.account.data = .ok v) ∧
      (∀ data : Bytes, data.length < allocationLimit → t.decode k.codec data = .ok v →
        ∃ filled, t.encode (k.codec.write v) data.length = .ok filled ∧
          filled.take size = data.take size ∧
          filled.drop size = List.replicate (data.length - size) 0) ∧
      ∀ data : Bytes, data.length < 8 ∨ data.take 8 ≠ t.header → t.decode k.codec data ≠ .ok v := by
  intro form size
  have written : k.codec.write v = form := k.write_eq v
  refine ⟨fun capacity => ?_, fun capacity filled h => ?_, fun program h h' saved => ?_,
    fun data addressable h => ?_, fun data h => Tag.decode_ne_ok h v⟩
  · rw [written]
    exact Tag.exists_encode_iff
  · have holds := Tag.holds_of_encode h
    exact ⟨written ▸ holds, holds.decodes⟩
  · have holds := Tag.holds_of_save saved
    exact ⟨written ▸ holds, holds.decodes⟩
  · have again := Tag.encode_of_decode addressable h
    rwa [written] at again ⊢

/-- a record of 22 bytes -/
def note : Scenario.Memo := ⟨7, ⟨"hi", by decide⟩⟩

/-- an account that holds a longer record in its 30 bytes -/
def noted : Handle where
  name := none
  account :=
    { key := .ofNat 21
      lamports := 10000000
      data := (Record.tag Scenario.Memo).image
        (Record.codec.write (⟨9, ⟨"welcome", by decide⟩⟩ : Scenario.Memo)) 30
      owner := .ofNat 9 }
  signer := false
  writable := true
  tag := some (Record.tag Scenario.Memo)

/-- A record of 22 bytes does not fit 21, and fits 25.  Saved over a longer one it is all that is left,
and three bytes behind it become zero. -/
theorem note_round_trip :
    let t := Record.tag Scenario.Memo
    let form := Scenario.Kind.memo.form note
    let data := t.header ++ form ++ [1, 2, 3]
    form = [7, 0, 0, 0, 0, 0, 0, 0, 2, 0, 0, 0, 104, 105] ∧
      ¬ (∃ filled, t.encode form 21 = .ok filled) ∧
      (∃ filled, t.encode form 25 = .ok filled ∧ t.Holds form 25 filled) ∧
      (∃ h', noted.save (.ofNat 9) t form = .ok h' ∧ t.Holds form 30 h'.account.data) ∧
      (∃ filled, t.encode form 25 = .ok filled ∧ filled.take 22 = data.take 22 ∧
        filled.drop 22 = [0, 0, 0]) ∧
      t.decode Record.codec [1, 2, 3] ≠ .ok note := by
  intro t form data
  have bytes : form = [7, 0, 0, 0, 0, 0, 0, 0, 2, 0, 0, 0, 104, 105] := by decide +kernel
  have size : 8 + form.length = 22 := by rw [bytes]; rfl
  have length : data.length = 25 := by
    rw [List.length_append, List.length_append, Tag.length_header, size]
    rfl
  have held : noted.account.data.length = 30 := Tag.length_image (by decide +kernel)
  obtain ⟨encodes, holds, saves, again, other⟩ := record_round_trip .memo t note
  rw [Scenario.Kind.write_eq] at *
  refine ⟨bytes, fun h => ?_, ?_, ?_, ?_, other _ (.inl (by decide))⟩
  · have room : 8 + form.length ≤ 21 := ((encodes 21).1 h).1
    rw [size] at room
    exact absurd room (by decide)
  · obtain ⟨filled, h⟩ := (encodes 25).2 ⟨by rw [size]; decide, by decide⟩
    exact ⟨filled, h, (holds 25 filled h).1⟩
  · have saved := Handle.save_eq_ok_iff.2
      ⟨(rfl : noted.writable = true), rfl, (rfl : noted.account.owner = .ofNat 9),
        (rfl : noted.tag = some t), by rw [size, held]; decide, rfl⟩
    have kept := (saves _ _ _ saved).1
    rw [held] at kept
    exact ⟨_, saved, kept⟩
  · have h := again data (by rw [length]; decide) (Tag.decode_eq_ok_iff.2 ⟨[1, 2, 3], rfl⟩)
    rw [length, size] at h
    exact h

/-- A record that would fit is not encoded where there is no memory for the data. -/
theorem tally_past_memory :
    let form := Record.codec.write (⟨7⟩ : Scenario.Tally)
    8 + form.length ≤ allocationLimit ∧
      (Record.tag Scenario.Tally).encode form allocationLimit = .error (.crashed .capacity) :=
  ⟨by decide, rfl⟩

end AccountLedger
