import Logjam.Importer.Parser

/-! The adders merge the hash of one parser into that of another: entries the target lacks are
moved over, the others are added up, and the source is drained on the way. -/
namespace Logjam.Importer
open Logjam.Library.MergeMap

variable {n : ℕ}

/-- Rows of counters are added without touching the columns where the source is zero. -/
def addRow {m : ℕ} (dest source : Fin m → ℕ) : Fin m → ℕ :=
  fun i => if source i ≠ 0 then dest i+source i else dest i

def mergeQuants (target source : ZHash (Fin n → ℕ)) : ZHash (Fin n → ℕ) := mergeWith addRow target source

def mergeHistograms (target source : ZHash (Fin histogramSize → ℕ)) : ZHash (Fin histogramSize → ℕ) :=
  mergeWith addRow target source

def mergeModules (target source : ZHash Unit) : ZHash Unit := mergeWith (fun dest _ => dest) target source

def mergeIncrements (target source : ZHash (Increments n)) : ZHash (Increments n) :=
  mergeWith incrementsAdd target source

def mergeAgents (target source : ZHash UserAgentStats) : ZHash UserAgentStats :=
  mergeWith (fun dest source => {
    receivedBackend := dest.receivedBackend+source.receivedBackend
    receivedFrontend := dest.receivedFrontend+source.receivedFrontend
    feDropped := dest.feDropped+source.feDropped
    feDropReasons := fun i => dest.feDropReasons i+source.feDropReasons i }) target source

def mergeProcessor (dest source : Processor n) : Processor n where
  requestCount := dest.requestCount+source.requestCount
  modules := mergeModules dest.modules source.modules
  totals := mergeIncrements dest.totals source.totals
  minutes := mergeIncrements dest.minutes source.minutes
  quants := mergeQuants dest.quants source.quants
  histograms := mergeHistograms dest.histograms source.histograms
  agents := mergeAgents dest.agents source.agents

def mergeProcessors (target source : ZHash (Processor n)) : ZHash (Processor n) :=
  mergeWith mergeProcessor target source

/-- The first hash of a request is the source, the second one the target. -/
def handleAddition (source target : ZHash (Processor n)) : ZHash (Processor n) :=
  mergeProcessors target source

lemma addRow_eq_add {m : ℕ} (dest source : Fin m → ℕ) : addRow dest source = dest+source := by
  funext i
  by_cases h : source i = 0
  · simp [addRow,h]
  · simp [addRow,h]

/-- Merging two processors is their sum: each of the six hashes is merged by its own addition. -/
theorem mergeProcessor_eq_add (dest source : Processor n) : mergeProcessor dest source = dest+source :=
  Processor.ext rfl (mergeWith_eq_add (fun _ _ => rfl) _ _) (mergeWith_eq_add (fun _ _ => rfl) _ _)
    (mergeWith_eq_add (fun _ _ => rfl) _ _) (mergeWith_eq_add addRow_eq_add _ _)
    (mergeWith_eq_add addRow_eq_add _ _) (mergeWith_eq_add (fun _ _ => rfl) _ _)

theorem handleAddition_eq_add (source target : ZHash (Processor n)) :
    handleAddition source target = source+target := by
  rw [add_comm]
  exact mergeWith_eq_add mergeProcessor_eq_add target source

end Logjam.Importer
