import Logjam.Basic.Bytes

/-! The setting that names the actions without frontend messages. Its table has a place for every part of
the setting, also for the empty ones, which strtok does not report. -/
namespace Logjam.Importer

/-- The settings of a stream that backend_only_request looks at. The table has backend_only_requests_size
places, where NULL is none. -/
structure BackendOnlySettings where
  allRequestsAreBackendOnlyRequests : Bool
  backendOnlyRequests : List (Option Bytes)

/-- A new stream info. -/
def BackendOnlySettings.unset : BackendOnlySettings := ⟨false,[]⟩

def strCount (str : Bytes) (c : UInt8) : ℕ := str.count c

/-- A call of strtok: the next token, and where the next call goes on. -/
def strtok (delimiter : UInt8) (s : Bytes) : Option (Bytes × Bytes) :=
  match s.dropWhile (· == delimiter) with
  | [] => none
  | c::rest => some ((c::rest).takeWhile (· != delimiter),((c::rest).dropWhile (· != delimiter)).drop 1)

lemma length_lt_of_strtok {delimiter : UInt8} {s part rest : Bytes} (h : strtok delimiter s = some (part,rest)) :
    rest.length < s.length := by
  have hskipped := (List.dropWhile_sublist (· == delimiter) (l := s)).length_le
  unfold strtok at h
  split at h
  · cases h
  · next c t hs =>
    obtain ⟨-,rfl⟩ := Prod.mk.inj (Option.some.inj h)
    have htoken := (List.dropWhile_sublist (· != delimiter) (l := c::t)).length_le
    rw [hs,List.length_cons] at hskipped
    rw [List.length_cons] at htoken
    rw [List.length_drop]
    omega

/-- The loop over the tokens. -/
def fillTable (table : List (Option Bytes)) (i : ℕ) (s : Bytes) : Except Fault (List (Option Bytes)) :=
  match h : strtok 44 s with
  | none => .ok table
  | some (part,rest) =>
    if i < table.length then fillTable (table.set i (some part)) (i+1) rest else .error .outOfBounds
termination_by s.length
decreasing_by exact length_lt_of_strtok h

/-- The number of places is an int, and zmalloc does not return without memory for them. -/
def addBackendOnlyRequestsSettings (info : BackendOnlySettings) (value : Bytes) : Except Fault BackendOnlySettings :=
  if value = lit "*" then .ok { info with allRequestsAreBackendOnlyRequests := true }
  else if 0 < value.length then
    let n := toInt32 (strCount value 44+1)
    if n < 0 then .error .assertFailed
    else do
      let table ← fillTable (List.replicate n.toNat none) 0 value
      return { info with backendOnlyRequests := table }
  else .ok info

/-- The loop over the table. -/
def startsWithAny (action : Bytes) : List (Option Bytes) → Except Fault Bool
  | [] => .ok false
  | none::_ => .error .nullString
  | some part::rest => if strstr action part = some 0 then .ok true else startsWithAny action rest

def backendOnlyRequest (action : Bytes) (stream : BackendOnlySettings) : Except Fault Bool :=
  if stream.allRequestsAreBackendOnlyRequests then .ok true
  else startsWithAny action stream.backendOnlyRequests

/-! The tokens. -/

/-- The parts of a setting that name something. -/
def namedParts (value : Bytes) : List Bytes := (value.splitOn 44).filter (· ≠ [])

lemma namedParts_of_notMem {part : Bytes} (h : 44 ∉ part) (hne : part ≠ []) : namedParts part = [part] := by
  rw [namedParts,List.splitOn_eq_singleton h,List.filter_cons_of_pos (by simpa using hne),List.filter_nil]

lemma namedParts_append {part : Bytes} (h : 44 ∉ part) (hne : part ≠ []) (rest : Bytes) :
    namedParts (part ++ 44::rest) = part::namedParts rest := by
  rw [namedParts,List.splitOn_append_cons_self,List.filter_append]
  exact congrArg (· ++ namedParts rest) (namedParts_of_notMem h hne)

lemma namedParts_comma (rest : Bytes) : namedParts (44::rest) = namedParts rest := by
  have hsplit : ([] ++ 44::rest).splitOn 44 = [[]] ++ rest.splitOn 44 := List.splitOn_append_cons_self ..
  rw [List.nil_append] at hsplit
  rw [namedParts,hsplit,List.filter_append]
  rfl

/-- Commas before the next token make no difference. -/
lemma namedParts_dropWhile (s : Bytes) : namedParts (s.dropWhile (· == 44)) = namedParts s := by
  induction s with
  | nil => rfl
  | cons c s ih =>
    by_cases hc : c = 44
    · rw [List.dropWhile_cons_of_pos (by simpa using hc),ih,hc,namedParts_comma]
    · rw [List.dropWhile_cons_of_neg (by simpa using hc)]

lemma namedParts_of_strtok_none {s : Bytes} (h : strtok 44 s = none) : namedParts s = [] := by
  unfold strtok at h
  split at h
  · next hs =>
    rw [← namedParts_dropWhile,hs]
    rfl
  · cases h

lemma namedParts_of_strtok_some {s part rest : Bytes} (h : strtok 44 s = some (part,rest)) :
    namedParts s = part::namedParts rest := by
  unfold strtok at h
  split at h
  · cases h
  · next c t hs =>
    obtain ⟨rfl,rfl⟩ := Prod.mk.inj (Option.some.inj h)
    have hc : c ≠ 44 := by simpa [hs] using List.head?_dropWhile_not (· == 44) s
    have hne : (c::t).takeWhile (· != 44) ≠ [] := by
      rw [List.takeWhile_cons_of_pos (by simpa using hc)]
      exact List.cons_ne_nil _ _
    have hnone : 44 ∉ (c::t).takeWhile (· != 44) := fun hmem => absurd (List.mem_takeWhile_imp hmem) (by decide)
    have hsplit : (c::t).takeWhile (· != 44) ++ (c::t).dropWhile (· != 44) = c::t := List.takeWhile_append_dropWhile
    rw [← namedParts_dropWhile,hs]
    conv_lhs => rw [← hsplit]
    -- the token ends at a comma or with the string
    cases hrest : (c::t).dropWhile (· != 44) with
    | nil => exact (congrArg namedParts (List.append_nil _)).trans (namedParts_of_notMem hnone hne)
    | cons x rest =>
      obtain rfl : x = 44 := by simpa [hrest] using List.head?_dropWhile_not (· != 44) (c::t)
      exact namedParts_append hnone hne rest

/-- The tokens are written to the places in their order; places that are left stay NULL. -/
lemma fillTable_eq (written : List (Option Bytes)) (k : ℕ) (s : Bytes) :
    fillTable (written ++ List.replicate k none) written.length s =
      if (namedParts s).length ≤ k then
        .ok (written ++ ((namedParts s).map some ++ List.replicate (k-(namedParts s).length) none))
      else .error .outOfBounds := by
  induction hn : s.length using Nat.strong_induction_on generalizing written k s with
  | _ n ih =>
    rw [fillTable]
    split
    · next h =>
      rw [namedParts_of_strtok_none h,if_pos (by simp)]
      rfl
    · next part rest h =>
      rw [namedParts_of_strtok_some h,List.length_cons]
      cases k with
      | zero =>
        rw [if_neg (by simp),if_neg (by omega)]
      | succ k =>
        have hset : (written ++ List.replicate (k+1) none).set written.length (some part) =
            (written ++ [some part]) ++ List.replicate k none := by
          rw [List.replicate_succ,List.set_append_right _ _ le_rfl,Nat.sub_self,List.set_cons_zero,List.append_assoc]
          rfl
        have hlength : written.length+1 = (written ++ [some part]).length := by simp
        rw [if_pos (by simp),hset,hlength,ih rest.length (hn ▸ length_lt_of_strtok h) _ _ _ rfl]
        by_cases hle : (namedParts rest).length ≤ k
        · rw [if_pos hle,if_pos (by omega),Nat.add_sub_add_right]
          simp
        · rw [if_neg hle,if_neg (by omega)]

/-! The table. -/

lemma strstr_eq_zero_iff {s needle : Bytes} : strstr s needle = some 0 ↔ needle <+: s := by
  cases s with
  | nil =>
    rw [strstr,List.prefix_nil]
    split_ifs with h <;> simp [h]
  | cons c s =>
    rw [strstr,← List.isPrefixOf_iff_prefix]
    split_ifs with h <;> simp [h]

/-- A name is found before the first NULL is reached, or NULL is passed to strstr. -/
lemma startsWithAny_eq (action : Bytes) (parts : List Bytes) (k : ℕ) :
    startsWithAny action (parts.map some ++ List.replicate k none) =
      if ∃ part ∈ parts,part <+: action then .ok true else if k = 0 then .ok false else .error .nullString := by
  induction parts with
  | nil =>
    rw [if_neg (by simp)]
    cases k with
    | zero => rfl
    | succ k => rfl
  | cons part parts ih =>
    rw [List.map_cons,List.cons_append,startsWithAny,ih]
    by_cases hpart : part <+: action
    · rw [if_pos (strstr_eq_zero_iff.mpr hpart),if_pos ⟨part,List.mem_cons_self,hpart⟩]
    · rw [if_neg (mt strstr_eq_zero_iff.mp hpart)]
      exact if_congr (by simp [hpart]) rfl rfl

/-! The setting. -/

/-- What the setting says about an action. -/
def BackendOnly (value action : Bytes) : Prop :=
  value = lit "*" ∨ ∃ part ∈ value.splitOn 44,part ≠ [] ∧ part <+: action

instance (value action : Bytes) : Decidable (BackendOnly value action) := inferInstanceAs (Decidable (_ ∨ _))

/-- The size of the table. -/
def places (value : Bytes) : ℤ := toInt32 (strCount value 44+1)

lemma exists_namedPart_iff {value action : Bytes} (h : value ≠ lit "*") :
    (∃ part ∈ namedParts value,part <+: action) ↔ BackendOnly value action := by
  rw [BackendOnly,or_iff_right h]
  simp only [namedParts,List.mem_filter,decide_eq_true_eq,and_assoc]

lemma addBackendOnlyRequestsSettings_eq_ok_iff {value : Bytes} {stream : BackendOnlySettings} (hstar : value ≠ lit "*")
    (hne : value ≠ []) : addBackendOnlyRequestsSettings .unset value = .ok stream ↔
      ((namedParts value).length : ℤ) ≤ places value ∧ stream = ⟨false,(namedParts value).map some ++
        List.replicate ((places value).toNat-(namedParts value).length) none⟩ := by
  have hfill := fillTable_eq [] (places value).toNat value
  rw [List.nil_append,List.length_nil] at hfill
  rw [addBackendOnlyRequestsSettings,if_neg hstar,if_pos (List.length_pos_iff.mpr hne)]
  change (if places value < 0 then _ else fillTable (List.replicate (places value).toNat none) 0 value >>= _) = _ ↔ _
  rw [hfill]
  by_cases hneg : places value < 0
  · rw [if_pos hneg]
    exact iff_of_false nofun fun h => by omega
  · rw [if_neg hneg]
    by_cases hle : (namedParts value).length ≤ (places value).toNat
    · rw [if_pos hle,and_iff_right (by omega)]
      exact ⟨fun h => (Except.ok.inj h).symm,fun h => congrArg Except.ok h.symm⟩
    · rw [if_neg hle]
      exact iff_of_false nofun fun h => by omega

/-- The settings work if every place of the table has been filled: no part is empty. Otherwise they work
for the actions that a part names. -/
theorem backendOnlyRequest_iff (value action : Bytes) :
    (∃ stream,addBackendOnlyRequestsSettings .unset value = .ok stream ∧
      backendOnlyRequest action stream = .ok (decide (BackendOnly value action))) ↔
      value = lit "*" ∨ value = [] ∨ (namedParts value).length = places value ∨
        (namedParts value).length < places value ∧ BackendOnly value action := by
  by_cases hstar : value = lit "*"
  · refine iff_of_true ⟨⟨true,[]⟩,if_pos hstar,?_⟩ (.inl hstar)
    rw [decide_eq_true (show BackendOnly value action from .inl hstar)]
    rfl
  by_cases hempty : value = []
  · refine iff_of_true ⟨.unset,?_,?_⟩ (.inr (.inl hempty))
    · rw [addBackendOnlyRequestsSettings,if_neg hstar,if_neg (by simp [hempty])]
    · have hnone : ¬BackendOnly value action := by
        rw [← exists_namedPart_iff hstar,hempty]
        simp [namedParts]
      rw [decide_eq_false hnone]
      rfl
  simp only [hstar,hempty,false_or,addBackendOnlyRequestsSettings_eq_ok_iff hstar hempty]
  have hloop (k : ℕ) := startsWithAny_eq action (namedParts value) k
  simp only [exists_namedPart_iff hstar] at hloop
  constructor
  · rintro ⟨_,⟨hle,rfl⟩,hresult⟩
    change startsWithAny action _ = _ at hresult
    rw [hloop] at hresult
    by_cases hmatch : BackendOnly value action
    · rcases hle.lt_or_eq with hlt | heq
      · exact .inr ⟨hlt,hmatch⟩
      · exact .inl heq
    · rw [if_neg hmatch] at hresult
      split_ifs at hresult with hfull
      exact .inl (by omega)
  · intro h
    refine ⟨_,⟨by rcases h with h | h <;> omega,rfl⟩,(hloop _).trans ?_⟩
    by_cases hmatch : BackendOnly value action
    · rw [if_pos hmatch,decide_eq_true hmatch]
    · have heq := h.resolve_right fun h => hmatch h.2
      rw [if_neg hmatch,if_pos (by omega),decide_eq_false hmatch]

/-- The second place of the table is NULL. -/
theorem backendOnlyRequest_leading_comma :
    ∃ stream,addBackendOnlyRequestsSettings .unset (lit ",Api") = .ok stream ∧
      backendOnlyRequest (lit "Cart#show") stream = .error .nullString := by
  have hvalue : lit ",Api" ≠ lit "*" ∧ lit ",Api" ≠ [] := by decide
  have hplaces : ((namedParts (lit ",Api")).length : ℤ) ≤ places (lit ",Api") := by decide
  refine ⟨_,(addBackendOnlyRequestsSettings_eq_ok_iff hvalue.1 hvalue.2).mpr ⟨hplaces,rfl⟩,?_⟩
  exact (startsWithAny_eq _ _ _).trans (by decide)

end Logjam.Importer
