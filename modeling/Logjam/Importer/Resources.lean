import Logjam.Basic.Json

/-! The configured metrics. Every metric has a number below n; the numbers are grouped by kind in
the order time, call, memory, heap, frontend, dom, and the offsets are the last number of a group. -/
namespace Logjam.Importer

/-- The request counters of an update document. -/
def countFields : List Bytes :=
  [lit "count",lit "page_count",lit "ajax_count",lit "frontend_count"]

/-- MongoDB refuses an update that names a field twice, so the configuration keeps the metric
names apart from each other, from their derived names and from the request counters. -/
structure Resources (n : ℕ) where
  intToResource : Fin n → Bytes
  otherTimeResources : List Bytes
  lastTimeResourceOffset : ℕ
  lastHeapResourceOffset : ℕ
  lastFrontendResourceOffset : ℕ
  allocatedObjectsIndex : Fin n
  allocatedBytesIndex : Fin n
  totalTimeIndex : Fin n
  pageTimeIndex : Fin n
  ajaxTimeIndex : Fin n
  injective : Function.Injective intToResource
  ne_sq : ∀ i j, intToResource i ≠ intToResource j ++ lit "_sq"
  ne_max : ∀ i j, intToResource i ≠ intToResource j ++ lit "_max"
  ne_count : ∀ i, intToResource i ∉ countFields
  no_dot : ∀ i, 46 ∉ intToResource i

def Resources.intToResourceSq {n : ℕ} (res : Resources n) (i : Fin n) : Bytes :=
  res.intToResource i ++ lit "_sq"

def Resources.intToResourceMax {n : ℕ} (res : Resources n) (i : Fin n) : Bytes :=
  res.intToResource i ++ lit "_max"

/-- A configuration with one or two metrics of every kind. -/
def sampleResources : Resources 10 where
  intToResource := ![lit "total_time",lit "db_time",lit "other_time",lit "db_calls",
    lit "allocated_objects",lit "allocated_bytes",lit "heap_size",lit "page_time",lit "ajax_time",
    lit "html_nodes"]
  otherTimeResources := [lit "db_time"]
  lastTimeResourceOffset := 2
  lastHeapResourceOffset := 6
  lastFrontendResourceOffset := 8
  allocatedObjectsIndex := 4
  allocatedBytesIndex := 5
  totalTimeIndex := 0
  pageTimeIndex := 7
  ajaxTimeIndex := 8
  injective := by decide
  ne_sq := by decide
  ne_max := by decide
  ne_count := by decide
  no_dot := by decide

end Logjam.Importer
