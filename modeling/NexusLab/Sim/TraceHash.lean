import NexusLab.Foundation.Encoding
import NexusLab.Sim.Trace

/-! # The hash of a trace

The bytes that are hashed determine the records, and the hash of a log is the hash of the bytes of
all its records.  One different byte makes a different hash, since every step of FNV-1a is a
bijection. -/

namespace NexusLab.Sim

open Foundation

/-- The values of a record are values of the source's types. -/
structure TraceRecord.Fits (record : TraceRecord) : Prop where
  recordedAt : record.recordedAt < 2 ^ 64
  eventId : ∀ id ∈ record.eventId, id.value < 2 ^ 64
  cause : ∀ id ∈ record.cause, id.value < 2 ^ 64
  eventTimestamp : ∀ time ∈ record.eventTimestamp, time < 2 ^ 64
  error : ∀ text ∈ record.error, IsText text ∧ text.length < 2 ^ 64

/-! ## Fields -/

theorem decodes_u64 : Decodes encodeU64 (fun value => value < 2 ^ 64) :=
  decodes_littleEndian 8

theorem decodes_id {Tag : Type} :
    Decodes (fun id : StrongId Tag => encodeU64 id.value) (fun id => id.value < 2 ^ 64) :=
  decodes_u64.comap (fun _ small => small)
    (fun _ _ _ _ same => StrongId.value_injective same)

/-- One byte for each value. -/
theorem decodes_byte {α : Type} {value : α → UInt8} (injective : Function.Injective value) :
    Decodes (fun a => [value a]) (fun _ => True) := by
  refine .of_length (fun _ => rfl) fun a b _ _ same => ?_
  exact injective (List.cons.inj same).1

theorem encodeOptional_eq {α : Type} (encode : α → List UInt8) :
    encodeOptional encode = encodeOption (fun present => [if present then 1 else 0]) encode := by
  funext o
  cases o <;> rfl

theorem decodes_optional {α : Type} {encode : α → List UInt8} {valid : α → Prop}
    (decodes : Decodes encode valid) :
    Decodes (encodeOptional encode) (fun o => ∀ a ∈ o, valid a) := by
  rw [encodeOptional_eq]
  refine .option (decodes_byte ?_) decodes
  intro a b same
  cases a <;> cases b <;> first | rfl | cases same

theorem length_textBytes (text : String) : (textBytes text).length = text.length := by
  rw [textBytes, List.length_map, String.length_toList]

theorem decodes_text :
    Decodes encodeError (fun text => IsText text ∧ text.length < 2 ^ 64) := by
  intro a b s t validA validB same
  simp only [encodeError, List.append_assoc, length_textBytes] at same
  obtain ⟨length, rest⟩ := decodes_u64 _ _ _ _ validA.2 validB.2 same
  have split := List.append_inj rest (by rw [length_textBytes, length_textBytes, length])
  exact ⟨textBytes_inj validA.1 validB.1 split.1, split.2⟩

theorem TraceAction.value_injective : Function.Injective TraceAction.value := by
  intro a b same
  cases a <;> cases b <;> first | rfl | cases same

theorem EventPayloadKind.value_injective : Function.Injective EventPayloadKind.value := by
  intro a b same
  cases a <;> cases b <;> first | rfl | cases same

theorem StopReason.value_injective : Function.Injective StopReason.value := by
  intro a b _
  cases a
  cases b
  rfl

theorem EventPriority.byte_injective :
    Function.Injective fun priority : EventPriority => UInt8.ofNat priority.value := by
  intro a b same
  cases a <;> cases b <;> first | rfl | cases same

/-! ## Records -/

/-- A record can be read off the front of the bytes. -/
theorem decodes_record : Decodes encodeRecord TraceRecord.Fits := by
  intro a b s t fitsA fitsB same
  simp only [encodeRecord, List.append_assoc] at same
  obtain ⟨action, same⟩ := decodes_byte TraceAction.value_injective _ _ _ _ trivial trivial same
  obtain ⟨recordedAt, same⟩ := decodes_u64 _ _ _ _ fitsA.recordedAt fitsB.recordedAt same
  obtain ⟨eventId, same⟩ := decodes_optional decodes_id _ _ _ _ fitsA.eventId fitsB.eventId same
  obtain ⟨cause, same⟩ := decodes_optional decodes_id _ _ _ _ fitsA.cause fitsB.cause same
  obtain ⟨eventTimestamp, same⟩ :=
    decodes_optional decodes_u64 _ _ _ _ fitsA.eventTimestamp fitsB.eventTimestamp same
  obtain ⟨priority, same⟩ := decodes_optional (decodes_byte EventPriority.byte_injective)
    _ _ _ _ (fun _ _ => trivial) (fun _ _ => trivial) same
  obtain ⟨payloadKind, same⟩ := decodes_optional (decodes_byte EventPayloadKind.value_injective)
    _ _ _ _ (fun _ _ => trivial) (fun _ _ => trivial) same
  obtain ⟨stopReason, same⟩ := decodes_optional (decodes_byte StopReason.value_injective)
    _ _ _ _ (fun _ _ => trivial) (fun _ _ => trivial) same
  obtain ⟨error, rest⟩ := decodes_optional decodes_text _ _ _ _ fitsA.error fitsB.error same
  cases a
  cases b
  simp only at action recordedAt eventId cause eventTimestamp priority payloadKind stopReason error
  subst action recordedAt eventId cause eventTimestamp priority payloadKind stopReason error
  exact ⟨rfl, rest⟩

/-- The bytes that a list of records is hashed as. -/
def encodeRecords (records : List TraceRecord) : List UInt8 := records.flatMap encodeRecord

theorem encodeRecord_ne_nil (record : TraceRecord) : encodeRecord record ≠ [] := by
  simp [encodeRecord]

/-! ## The hash -/

/-- FNV-1a. -/
def fnv1a (bytes : List UInt8) : UInt64 := bytes.foldl hashByte fnvOffsetBasis

theorem fnvPrime_unit : fnvPrime * 14886173955864302971 = 1 := by decide

theorem hashByte_eq : hashByte = mixByte fnvPrime := rfl

theorem fnv1a_ne {s t : List UInt8} (differ : DifferInOne s t) : fnv1a s ≠ fnv1a t := by
  unfold fnv1a
  rw [hashByte_eq]
  exact foldl_ne_of_differInOne (mixByte_injective fnvPrime_unit)
    (mixByte_separates fnvPrime_unit) differ _

/-- A log holds the hash of its records. -/
def TraceLog.Hashed (log : TraceLog) : Prop := log.hash = fnv1a (encodeRecords log.records)

theorem TraceLog.Hashed.append {log : TraceLog} (hashed : log.Hashed) (record : TraceRecord) :
    (log.append record).Hashed := by
  unfold TraceLog.Hashed at hashed ⊢
  unfold TraceLog.append
  split
  · simp only [hashRecord, hashed, fnv1a, encodeRecords, List.flatMap_append, List.flatMap_cons,
      List.flatMap_nil, List.append_nil, List.foldl_append]
  · exact hashed

theorem TraceLog.hashed_appends (records : List TraceRecord) {log : TraceLog}
    (hashed : log.Hashed) : (records.foldl TraceLog.append log).Hashed := by
  induction records generalizing log with
  | nil => exact hashed
  | cons record records ih => exact ih (hashed.append record)

theorem TraceLog.records_appends (records : List TraceRecord) {log : TraceLog}
    (enabled : log.enabled = true) :
    (records.foldl TraceLog.append log).records = log.records ++ records ∧
      (records.foldl TraceLog.append log).enabled = true := by
  induction records generalizing log with
  | nil => exact ⟨(List.append_nil _).symm, enabled⟩
  | cons record records ih =>
    have appended : log.append record =
        { log with records := log.records ++ [record], hash := hashRecord log.hash record } :=
      if_pos enabled
    have enabledAfter : (log.append record).enabled = true := by
      rw [appended]
      exact enabled
    obtain ⟨all, still⟩ := ih enabledAfter
    rw [List.foldl_cons]
    refine ⟨?_, still⟩
    rw [all, appended, List.append_assoc, List.singleton_append]

/-- The bytes of records determine the records; the hash that a log keeps while records are appended
is the hash of all their bytes; and lists of records whose bytes differ in one place have different
hashes. -/
theorem trace_hash_encoding :
    Decodes encodeRecord TraceRecord.Fits ∧
    (∀ records records' : List TraceRecord, (∀ record ∈ records, record.Fits) →
      (∀ record ∈ records', record.Fits) → encodeRecords records = encodeRecords records' →
      records = records') ∧
    (∀ mode records, (records.foldl TraceLog.append { mode }).reportedHash =
      if mode = .enabled then some (fnv1a (encodeRecords records)) else none) ∧
    ∀ records records', DifferInOne (encodeRecords records) (encodeRecords records') →
      fnv1a (encodeRecords records) ≠ fnv1a (encodeRecords records') := by
  refine ⟨decodes_record, decodes_record.stream encodeRecord_ne_nil, ?_,
    fun _ _ differ => fnv1a_ne differ⟩
  intro mode records
  have hashed : ({ mode } : TraceLog).Hashed := rfl
  have all := TraceLog.hashed_appends records hashed
  cases mode with
  | disabled =>
    have off : ∀ log : TraceLog, log.enabled = false →
        records.foldl TraceLog.append log = log := by
      intro log disabled
      clear all hashed
      induction records with
      | nil => rfl
      | cons record records ih => simp [TraceLog.append, disabled, ih]
    have same := off { mode := .disabled } rfl
    simp [same, TraceLog.reportedHash, TraceLog.enabled]
  | enabled =>
    have start : ({ mode := .enabled } : TraceLog).enabled = true := rfl
    obtain ⟨kept, enabled⟩ := TraceLog.records_appends records start
    unfold TraceLog.Hashed at all
    rw [kept, List.nil_append] at all
    simp [TraceLog.reportedHash, enabled, all]

/-- The records of a run in which the first event schedules another one and throws. -/
def failedRun (error : String) : List TraceRecord :=
  [⟨.scheduled, 0, some ⟨0⟩, none, some 5, some .control, some .workload, none, none⟩,
    ⟨.dispatched, 5, some ⟨0⟩, none, some 5, some .control, some .workload, none, none⟩,
    ⟨.scheduled, 5, some ⟨1⟩, some ⟨0⟩, some 9, some .control, some .noOp, none, none⟩,
    ⟨.failed, 5, none, none, none, none, none, none, some error⟩]

theorem trace_hash_encoding_failed :
    encodeRecords (failedRun "link 0") ≠ encodeRecords (failedRun "link 1") ∧
    ((failedRun "link 0").foldl TraceLog.append { mode := .enabled }).reportedHash ≠
      ((failedRun "link 1").foldl TraceLog.append { mode := .enabled }).reportedHash := by
  obtain ⟨_, readable, hashed, differs⟩ := trace_hash_encoding
  have fits : ∀ error, IsText error ∧ error.length < 2 ^ 64 →
      ∀ record ∈ failedRun error, record.Fits := by
    rintro error ⟨text, short⟩ record member
    simp only [failedRun, List.mem_cons, List.not_mem_nil, or_false] at member
    rcases member with rfl | rfl | rfl | rfl
    all_goals constructor <;> simp [text]
    exact short
  constructor
  · intro same
    have records :=
      readable _ _ (fits "link 0" (by decide +kernel)) (fits "link 1" (by decide +kernel)) same
    exact absurd records (by decide)
  · rw [hashed, hashed]
    simp only [if_true, ne_eq, Option.some.injEq]
    -- the last byte is the number of the link
    refine differs _ _ ⟨(encodeRecords (failedRun "link 0")).take 139, [], 48, 49, by decide, ?_, ?_⟩
    all_goals decide +kernel

end NexusLab.Sim
