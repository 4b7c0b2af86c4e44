import FeatureFlow.Cascade
import FeatureFlow.Timestamp

/-!
# Written cascade reports

The form in which a report is printed and exchanged: with the times of its
steps, and with errors as text.
-/

namespace FeatureFlow

structure WrittenRecord where
  feature : String
  component : String
  started : Timestamp
  finished : Timestamp
  ports : List String
  error : Option String

namespace WrittenRecord

open Decode (rule)

def rules : List Decode.Rule :=
  [rule "feature" .required Decode.text, rule "component" .required Decode.text,
    rule "started" .required Timestamp.decode, rule "finished" .required Timestamp.decode,
    rule "ports" .required (Decode.list Decode.text),
    rule "error" .nullable (Decode.optional Decode.text)]

def decode (value : Json) : Decoded WrittenRecord := do
  let fields ← Decode.record "struct StepRecord" rules value
  return { feature := ← Decode.required fields "feature" Decode.text
           component := ← Decode.required fields "component" Decode.text
           started := ← Decode.required fields "started" Timestamp.decode
           finished := ← Decode.required fields "finished" Timestamp.decode
           ports := ← Decode.required fields "ports" (Decode.list Decode.text)
           error := ← Decode.defaulted fields "error" none (Decode.optional Decode.text) }

def toFields (r : WrittenRecord) : List (String × Json) :=
  [("feature", .text r.feature), ("component", .text r.component),
    ("started", r.started.toJson), ("finished", r.finished.toJson),
    ("ports", .texts r.ports), ("error", .ofOption .text r.error)]

def toJson (r : WrittenRecord) : Json :=
  .record r.toFields

end WrittenRecord

structure WrittenReport where
  feature : String
  trigger : String
  records : List WrittenRecord
  truncated : Bool
  totalMilliseconds : Int

namespace WrittenReport

open Decode (rule)

def rules : List Decode.Rule :=
  [rule "feature" .required Decode.text, rule "trigger" .required Decode.text,
    rule "records" .required (Decode.list WrittenRecord.decode),
    rule "truncated" .required Decode.boolean, rule "total_ms" .required Decode.signed]

def decode (value : Json) : Decoded WrittenReport := do
  let fields ← Decode.record "struct CascadeReport" rules value
  return { feature := ← Decode.required fields "feature" Decode.text
           trigger := ← Decode.required fields "trigger" Decode.text
           records := ← Decode.required fields "records" (Decode.list WrittenRecord.decode)
           truncated := ← Decode.required fields "truncated" Decode.boolean
           totalMilliseconds := ← Decode.required fields "total_ms" Decode.signed }

def toJson (r : WrittenReport) : Json :=
  .record [("feature", .text r.feature), ("trigger", .text r.trigger),
    ("records", .array (r.records.map WrittenRecord.toJson)),
    ("truncated", .boolean r.truncated), ("total_ms", .int r.totalMilliseconds)]

def text (r : WrittenReport) : String :=
  Json.indented 0 (.object [("feature", .text r.feature), ("trigger", .text r.trigger),
    ("records", .array (r.records.map fun record => .object record.toFields)),
    ("truncated", .boolean r.truncated), ("total_ms", .int r.totalMilliseconds)])

def executed (r : WrittenReport) : List String :=
  r.records.map (·.component)

end WrittenReport

def Report.writtenAt (r : Report) (moment : Timestamp) : WrittenReport :=
  { feature := r.feature, trigger := r.trigger, truncated := r.truncated, totalMilliseconds := 0
    records := r.records.map fun record =>
      { feature := record.feature, component := record.component, started := moment,
        finished := moment, ports := record.ports, error := record.error? } }

end FeatureFlow
