/-
This file shows that a registry decodes what was written in the format of a schema.

The index leads to the entry of the schema, and the layout of the entry is that of the format.
So the values come out of the body as they were written, and fields without limits hold them as
they are. Bytes after the body are left alone.
-/

import ZeroFrame.Proofs.Layout.Coverage
import ZeroFrame.Proofs.Layout.Unpacking
import ZeroFrame.Proofs.Message.Filling

namespace ZeroFrame

/-! ### Fields for the values of a format -/

namespace Packing

open Message

variable {native : Bool} {values : List Value}

theorem Letter.keeps_fieldType {letter : Letter} {count : Nat} {value : Value}
    (fits : letter.Fits native count value) : letter.fieldType.Keeps value := by
  cases fits <;> rfl

theorem forall₂_replicate_keeps {type : FieldType} (each : ∀ value ∈ values, type.Keeps value) :
    List.Forall₂ FieldType.Keeps (List.replicate values.length type) values := by
  induction values with
  | nil => exact List.Forall₂.nil
  | cons value values inductionHypothesis =>
    obtain ⟨first, others⟩ := List.forall_mem_cons.mp each
    exact List.Forall₂.cons first (inductionHypothesis others)

/-- There is a field without limits for every value that can be written. -/
theorem keeps_fieldTypes {parts : List Part} (admitted : AdmitsFrom native parts values) :
    List.Forall₂ FieldType.Keeps
      (parts.flatMap fun part => List.replicate part.arity part.letter.fieldType) values := by
  induction parts generalizing values with
  | nil =>
    obtain rfl := admitted
    exact List.Forall₂.nil
  | cons part parts inductionHypothesis =>
    obtain ⟨enough, fits, others⟩ := admitted
    have first := forall₂_replicate_keeps fun value member =>
      Letter.keeps_fieldType (fits value member)
    rw [List.length_take_of_le enough] at first
    rw [List.flatMap_cons, ← List.take_append_drop part.arity values]
    exact List.rel_append first (inductionHypothesis others)

end Packing

/-! ### Payloads -/

namespace Registry

open Packing
open Message (Field FieldType)

variable {registry : Registry} {entry : Entry} {format : Format} {values : List Value}

theorem Entry.Sound.ofFormat_eq (sound : entry.Sound) :
    Layout.ofFormat entry.schema.format = .ok entry.layout := by
  have laid := sound.layout
  unfold Schema.layout at laid
  split at laid
  case h_1 layout found =>
    obtain rfl := Except.ok.inj laid
    exact found
  all_goals cases laid

/-- The layout of an entry is that of the format of its schema. -/
theorem Entry.Sound.layout_eq (sound : entry.Sound) (written : entry.schema.format = format.text) :
    entry.layout = format.layout :=
  Format.eq_layout_of_ofFormat (written ▸ sound.ofFormat_eq)

theorem Entry.Sound.read_pack (sound : entry.Sound) (written : entry.schema.format = format.text)
    (admitted : format.Admits values)
    (kept : List.Forall₂ FieldType.Keeps (entry.schema.fields.map Field.type) values)
    (filler : Nat → UInt8) (rest : Bytes) :
    entry.read (format.pack filler values ++ rest) =
      .ok (⟨entry.schema.name, (entry.schema.fields.map Field.name).zip values⟩,
        indexSize + entry.layout.size) := by
  have inside : entry.layout.unpack (format.pack filler values ++ rest) = values := by
    rw [sound.layout_eq written, Layout.unpack_append (format.length_pack admitted).ge,
      Format.unpack_pack admitted]
  rw [Entry.read, inside, Message.fill_of_keeps kept]

/-- What follows the index is read by the entry under it. -/
theorem decode_toLittleEndian (known : registry.find? entry.index = some entry)
    (range : entry.index ≤ 65535) {body : Bytes} (enough : entry.layout.size ≤ body.length) :
    registry.decode (Bytes.toLittleEndian 2 entry.index ++ body) = entry.read body := by
  have index : (Bytes.toLittleEndian 2 entry.index).length = indexSize :=
    Bytes.length_toLittleEndian ..
  have leading : leadingIndex (Bytes.toLittleEndian 2 entry.index ++ body) = entry.index := by
    rw [leadingIndex, List.take_left' index]
    exact Bytes.ofLittleEndian_toLittleEndian_of_lt (Nat.lt_succ_of_le range)
  rw [← leading] at known
  rw [decode_of_find? _ known, if_neg, List.drop_left' index]
  · rw [List.length_append, index]
    omega
  · rw [List.length_append, index]
    exact Nat.le_add_right ..

/-- A registry gives back the values of a message that was written in the format of its schema.
This is so for all schemas whose registration did not fail, unless their formats have letters for
floating-point numbers or counted texts or letters that only native formats know, and it does not
depend on the bytes of padding and alignment nor on what follows the message. -/
theorem decode_packed (memory : Memory) (schemas : List Schema) (entry : Entry)
    (registered : entry ∈ (empty.run memory schemas).entries)
    (plain : ∀ char ∈ entry.schema.format.toList, char ∉ otherLetters) :
    (∃ format : Format, entry.schema.format = format.text) ∧
      ∀ format : Format, entry.schema.format = format.text →
        entry.schema.fields.map Field.type = format.fieldTypes →
        ∀ values : List Value, format.Admits values → ∀ (filler : Nat → UInt8) (rest : Bytes),
          let body := format.pack filler values
          body.length = entry.layout.size ∧ values.length = entry.schema.fields.length ∧
            (empty.run memory schemas).decode
                (Bytes.toLittleEndian 2 entry.index ++ body ++ rest) =
              .ok (⟨entry.schema.name, (entry.schema.fields.map Field.name).zip values⟩,
                2 + entry.layout.size) := by
  have sound := Sound.start.run memory schemas
  have lawful := (sound.entries entry registered).1
  refine ⟨Format.exists_of_ofFormat lawful.ofFormat_eq plain, ?_⟩
  intro format written typed values admitted filler rest body
  have sized : body.length = entry.layout.size := by
    rw [lawful.layout_eq written]
    exact format.length_pack admitted
  have kept : List.Forall₂ FieldType.Keeps (entry.schema.fields.map Field.type) values :=
    typed ▸ keeps_fieldTypes admitted
  have arity : values.length = entry.schema.fields.length := by
    rw [← kept.length_eq, List.length_map]
  have enough : entry.layout.size ≤ (body ++ rest).length := by
    rw [List.length_append, sized]
    exact Nat.le_add_right ..
  refine ⟨sized, arity, ?_⟩
  rw [List.append_assoc, decode_toLittleEndian (sound.find?_of_mem registered) lawful.range enough]
  exact lawful.read_pack written admitted kept filler rest

theorem decode_packed_aligned :
    let schema : Schema := ⟨"Probe", some 0x1234, "@ b2h0Q?3sx",
      [⟨"level", .int ⟨none, none, none, none⟩⟩, ⟨"east", .int ⟨none, none, none, none⟩⟩,
        ⟨"north", .int ⟨none, none, none, none⟩⟩, ⟨"valid", .bool⟩, ⟨"tag", .bytes ⟨none, none⟩⟩]⟩
    let body : Bytes :=
      [0xff, 0xee, 0x2c, 0x01, 0xfe, 0xff, 0xee, 0xee, 0x01, 0x61, 0x62, 0x63, 0xee]
    (empty.run .boundless [schema]).decode (Bytes.toLittleEndian 2 0x1234 ++ body ++ [7]) =
      .ok (⟨"Probe", [("level", .int (-1)), ("east", .int 300), ("north", .int (-2)),
        ("valid", .bool true), ("tag", .bytes [0x61, 0x62, 0x63])]⟩, 15) := by
  intro schema body
  let format : Format := ⟨some .native, [⟨[.space], [], .whole .byte true⟩,
    ⟨[], [2], .whole .short true⟩, ⟨[], [0], .whole .quad false⟩, ⟨[], [], .truth⟩,
    ⟨[], [3], .text⟩, ⟨[], [], .pad⟩], []⟩
  let values : List Value :=
    [.int (-1), .int 300, .int (-2), .bool true, .bytes [0x61, 0x62, 0x63]]
  have registered : ⟨0x1234, schema, format.layout⟩ ∈ (empty.run .boundless [schema]).entries := by
    decide
  have written : schema.format = format.text := by decide
  have plain : ∀ char ∈ schema.format.toList, char ∉ otherLetters :=
    List.all_iff_forall_prop.mp (by decide)
  have admitted : format.Admits values := by
    refine ⟨by decide, ?_, by decide, ?_, by decide, ?_, by decide, ?_, by decide, ?_,
      by decide, ?_, rfl⟩
    · rintro _ (_ | ⟨_, ⟨⟩⟩)
      exact .whole ⟨by decide, by decide⟩
    · rintro _ (_ | ⟨_, _ | ⟨_, ⟨⟩⟩⟩)
      · exact .whole ⟨by decide, by decide⟩
      · exact .whole ⟨by decide, by decide⟩
    · rintro _ ⟨⟩
    · rintro _ (_ | ⟨_, ⟨⟩⟩)
      exact .truth true
    · rintro _ (_ | ⟨_, ⟨⟩⟩)
      exact .text rfl
    · rintro _ ⟨⟩
  have packed : format.pack (fun _ => 0xee) values = body := by decide
  have size : format.layout.size = 13 := by decide
  obtain ⟨_, _, decoded⟩ := (decode_packed .boundless [schema] _ registered plain).2 format written
    rfl values admitted (fun _ => 0xee) [7]
  rw [packed] at decoded
  dsimp only at decoded
  rw [size] at decoded
  exact decoded

end Registry

end ZeroFrame
