import Logjam.LiveStream.Rings

/-! The windows of the anomaly detection. Total times are collected in blocks; the mean of a block is compared with
the means of the blocks before as soon as the next total time comes in. -/
namespace Logjam.LiveStream
open Library.Cyclic

variable {json : GoJson} {ai : AppInfo} {values : List ℚ}

/-- The mean of the block with the given number, counted from zero. -/
def blockMean (values : List ℚ) (i : ℕ) : ℚ := average ((values.drop (bufSize*i)).take bufSize)

/-- The means of the first blocks. -/
def blockMeans (values : List ℚ) (k : ℕ) : List ℚ := (List.range k).map (blockMean values)

/-- The number of completed blocks. A block is completed by the first value of the next one. -/
def completedBlocks (values : List ℚ) : ℕ := (values.length-1)/bufSize

/-- The mean of a block against that of the means of the blocks before, as far as they are remembered. -/
def blockScore (values : List ℚ) (k : ℕ) : ℚ :=
  let m := blockMean values k
  let f := average (lastUpTo bufSize (blockMeans values k))
  if 0 < k ∧ 0 < f+m then |f-m|/(f+m) else 0

def blockAnomaly (json : GoJson) (values : List ℚ) (k : ℕ) : Option Bytes :=
  json.marshalAnomaly (blockScore values k) (decide (6/25 < blockScore values k))

/-- The anomaly message that the next value gives rise to. -/
def nextAnomaly (json : GoJson) (values : List ℚ) : Option Bytes :=
  if 0 < values.length ∧ bufSize ∣ values.length then blockAnomaly json values (values.length/bufSize-1) else none

/-- All the anomaly messages of the values. -/
def anomalies (json : GoJson) (values : List ℚ) : List Bytes :=
  (List.range (completedBlocks values)).filterMap (blockAnomaly json values)

/-- The state of an application after the values. -/
structure Windows (json : GoJson) (ai : AppInfo) (values : List ℚ) : Prop where
  minute : ai.lastMinute.Represents (values.drop (bufSize*completedBlocks values))
  hour : ai.lastHour.Fresh (blockMeans values (completedBlocks values))
  anomaly : ai.lastAnomalyMsg = (anomalies json values).getLast?.getD []

lemma Windows.new : Windows json AppInfo.new [] := ⟨.new 0,.new,rfl⟩

/-! Blocks. -/

@[simp] lemma length_blockMeans (values : List ℚ) (k : ℕ) : (blockMeans values k).length = k := by simp [blockMeans]

lemma blockMeans_succ (values : List ℚ) (k : ℕ) :
    blockMeans values (k+1) = blockMeans values k ++ [blockMean values k] := by
  rw [blockMeans,blockMeans,List.range_succ,List.map_append,List.map_singleton]

/-- What comes later does not change a block that is complete. -/
lemma blockMean_append {i : ℕ} (h : bufSize*(i+1) ≤ values.length) (more : List ℚ) :
    blockMean (values ++ more) i = blockMean values i := by
  rw [Nat.mul_add_one] at h
  rw [blockMean,blockMean,List.drop_append_of_le_length (by omega),List.take_append_of_le_length]
  rw [List.length_drop]
  omega

lemma blockMeans_append {k : ℕ} (h : bufSize*k ≤ values.length) (more : List ℚ) :
    blockMeans (values ++ more) k = blockMeans values k := by
  refine List.map_congr_left fun i hi => blockMean_append (le_trans ?_ h) more
  exact Nat.mul_le_mul_left _ (List.mem_range.mp hi)

lemma blockScore_append {k : ℕ} (h : bufSize*(k+1) ≤ values.length) (more : List ℚ) :
    blockScore (values ++ more) k = blockScore values k := by
  have hk : bufSize*k ≤ values.length := le_trans (Nat.mul_le_mul_left _ (Nat.le_succ k)) h
  simp only [blockScore,blockMean_append h,blockMeans_append hk]

lemma blockAnomaly_append {k : ℕ} (h : bufSize*(k+1) ≤ values.length) (more : List ℚ) :
    blockAnomaly json (values ++ more) k = blockAnomaly json values k := by
  rw [blockAnomaly,blockScore_append h,blockAnomaly]

lemma completedBlocks_le (values : List ℚ) : bufSize*completedBlocks values ≤ values.length :=
  le_trans (Nat.mul_div_le _ _) (Nat.sub_le _ _)

lemma completedBlocks_concat (values : List ℚ) (v : ℚ) : completedBlocks (values ++ [v]) = values.length/bufSize := by
  rw [completedBlocks,List.length_append,List.length_singleton,Nat.add_sub_cancel]

/-- The value after a whole block completes it. -/
lemma length_of_whole (h : 0 < values.length ∧ bufSize ∣ values.length) :
    values.length = bufSize*(completedBlocks values+1) ∧ values.length/bufSize = completedBlocks values+1 := by
  unfold completedBlocks bufSize at *
  omega

lemma length_of_part (h : ¬(0 < values.length ∧ bufSize ∣ values.length)) :
    values.length/bufSize = completedBlocks values := by
  unfold completedBlocks bufSize at *
  omega

lemma whole_iff (values : List ℚ) :
    bufSize ≤ (values.drop (bufSize*completedBlocks values)).length ↔ 0 < values.length ∧ bufSize ∣ values.length := by
  rw [List.length_drop]
  unfold completedBlocks bufSize
  omega

/-- The messages so far and the next one. -/
lemma anomalies_concat (json : GoJson) (values : List ℚ) (v : ℚ) :
    anomalies json (values ++ [v]) = anomalies json values ++ (nextAnomaly json values).toList := by
  have hsame : (List.range (completedBlocks values)).filterMap (blockAnomaly json (values ++ [v])) =
      anomalies json values := by
    refine List.filterMap_congr fun k hk => ?_
    have hle := Nat.mul_le_mul_left bufSize (Nat.succ_le_of_lt (List.mem_range.mp hk))
    exact blockAnomaly_append (hle.trans (completedBlocks_le values)) [v]
  rw [anomalies,completedBlocks_concat,nextAnomaly]
  split_ifs with hwhole
  · obtain ⟨hlength,hblocks⟩ := length_of_whole hwhole
    rw [hblocks,List.range_succ,List.filterMap_append,hsame,Nat.add_sub_cancel,List.filterMap_cons,
      blockAnomaly_append hlength.ge]
    cases blockAnomaly json values (completedBlocks values) <;> rfl
  · rw [length_of_part hwhole,hsame,Option.toList_none,List.append_nil]

/-! One more value. -/

namespace Windows

/-- The mean of the minute is that of the block which it holds. -/
lemma mean_minute (h : Windows json ai values) (hwhole : 0 < values.length ∧ bufSize ∣ values.length) :
    ai.lastMinute.mean = blockMean values (completedBlocks values) := by
  have hlength : (values.drop (bufSize*completedBlocks values)).length = bufSize := by
    obtain ⟨heq,-⟩ := length_of_whole hwhole
    rw [Nat.mul_add_one] at heq
    rw [List.length_drop]
    omega
  rw [h.minute.mean_of_leftover (leftover_of_le _ hlength.ge),lastUpTo_of_le hlength.le,blockMean,
    List.take_of_length_le hlength.le]

lemma anomalyScore_eq (h : Windows json ai values) (hwhole : 0 < values.length ∧ bufSize ∣ values.length) :
    anomalyScore ai = blockScore values (completedBlocks values) := by
  have hsize : 0 < ai.lastHour.size ↔ 0 < completedBlocks values := by
    rw [h.hour.size,length_blockMeans]
    have hbuf : 0 < bufSize := by decide
    omega
  simp only [anomalyScore,h.mean_minute hwhole,h.hour.mean_eq,hsize]
  rfl

lemma isFull_iff (h : Windows json ai values) :
    ai.lastMinute.isFull = true ↔ 0 < values.length ∧ bufSize ∣ values.length :=
  h.minute.isFull_iff.trans (whole_iff values)

/-- The value after a whole block, whose mean and message are entered. -/
lemma addTotalTime_of_whole (h : Windows json ai values) (hwhole : 0 < values.length ∧ bufSize ∣ values.length)
    (v : ℚ) :
    addTotalTime json ai v =
      ({ ai with
          lastHour := ai.lastHour.add (blockMean values (completedBlocks values))
          lastMinute := ai.lastMinute.reset.add v
          lastAnomalyMsg := (blockAnomaly json values (completedBlocks values)).getD ai.lastAnomalyMsg },
        blockAnomaly json values (completedBlocks values)) := by
  unfold LiveStream.addTotalTime
  rw [if_pos (h.isFull_iff.mpr hwhole)]
  dsimp only
  rw [h.anomalyScore_eq hwhole,h.mean_minute hwhole,blockAnomaly]

lemma addTotalTime_of_part (h : Windows json ai values) (hpart : ¬(0 < values.length ∧ bufSize ∣ values.length))
    (v : ℚ) :
    addTotalTime json ai v = ({ ai with lastMinute := ai.lastMinute.add v },none) :=
  if_neg (mt h.isFull_iff.mp hpart)

/-- The message is the one of the block that gets completed. -/
lemma addTotalTime_snd (h : Windows json ai values) (v : ℚ) : (addTotalTime json ai v).2 = nextAnomaly json values := by
  unfold nextAnomaly
  split_ifs with hwhole
  · rw [h.addTotalTime_of_whole hwhole,(length_of_whole hwhole).2,Nat.add_sub_cancel]
  · rw [h.addTotalTime_of_part hwhole]

lemma addTotalTime_minute (h : Windows json ai values) (v : ℚ) :
    (addTotalTime json ai v).1.lastMinute.Represents
      ((values ++ [v]).drop (bufSize*completedBlocks (values ++ [v]))) := by
  rw [completedBlocks_concat]
  by_cases hwhole : 0 < values.length ∧ bufSize ∣ values.length
  · obtain ⟨hlength,hblocks⟩ := length_of_whole hwhole
    rw [h.addTotalTime_of_whole hwhole,hblocks,← hlength,List.drop_left]
    exact (Ring.Represents.reset _).add v
  · rw [h.addTotalTime_of_part hwhole,length_of_part hwhole,List.drop_append_of_le_length (completedBlocks_le values)]
    exact h.minute.add v

lemma addTotalTime_hour (h : Windows json ai values) (v : ℚ) :
    (addTotalTime json ai v).1.lastHour.Fresh (blockMeans (values ++ [v]) (completedBlocks (values ++ [v]))) := by
  rw [completedBlocks_concat]
  by_cases hwhole : 0 < values.length ∧ bufSize ∣ values.length
  · obtain ⟨hlength,hblocks⟩ := length_of_whole hwhole
    rw [h.addTotalTime_of_whole hwhole,hblocks,blockMeans_append hlength.ge,blockMeans_succ]
    exact h.hour.add _
  · rw [h.addTotalTime_of_part hwhole,length_of_part hwhole,blockMeans_append (completedBlocks_le values)]
    exact h.hour

lemma addTotalTime_anomaly (h : Windows json ai values) (v : ℚ) :
    (addTotalTime json ai v).1.lastAnomalyMsg = (anomalies json (values ++ [v])).getLast?.getD [] := by
  have hlast : (addTotalTime json ai v).1.lastAnomalyMsg = (addTotalTime json ai v).2.getD ai.lastAnomalyMsg := by
    unfold addTotalTime
    split_ifs <;> rfl
  rw [hlast,h.addTotalTime_snd,anomalies_concat,h.anomaly]
  cases nextAnomaly json values <;> simp

theorem addTotalTime (h : Windows json ai values) (v : ℚ) : Windows json (addTotalTime json ai v).1 (values ++ [v]) :=
  ⟨h.addTotalTime_minute v,h.addTotalTime_hour v,h.addTotalTime_anomaly v⟩

/-- What the two rings hold. -/
lemma minute_elements (h : Windows json ai values) :
    ai.lastMinute.elements = lastUpTo ((values.length-1)%bufSize+1) values := by
  rw [h.minute.elements_eq,lastUpTo,lastUpTo,List.drop_drop,List.length_drop]
  congr 1
  unfold completedBlocks bufSize
  omega

lemma hour_elements (h : Windows json ai values) :
    ai.lastHour.elements = lastUpTo bufSize (blockMeans values (completedBlocks values)) := h.hour.elements_eq

end Windows

end Logjam.LiveStream
