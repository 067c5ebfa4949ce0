import Mathlib

namespace KeInFS.Kee

open Matrix List

inductive KeeError
  | payloadTooLarge (actual maximum : Nat)
  | tooManyFragmentsMissing (missing allowed : Nat)
  | tooFewFragmentsPresent (present required : Nat)
  | codec (message : String)

abbrev Shards (F : Type) (k m n : Nat) := Fin (k + m) → Fin n → F

abbrev Slots (F : Type) (k m n : Nat) := Fin (k + m) → Option (Fin n → F)

/-- A generator matrix whose first rows copy the data and any `k` rows of which are invertible. -/
structure Generator (F : Type) [Field F] (k m : Nat) where
  rows : Matrix (Fin (k + m)) (Fin k) F
  systematic : ∀ j, rows (Fin.castAdd m j) = Pi.single j 1
  mds : ∀ sources : Fin k → Fin (k + m), Function.Injective sources → IsUnit (rows.submatrix sources id)

def stack {β : Type} {k m : Nat} (data : Fin k → β) (parity : Fin m → β) : Fin (k + m) → β := Fin.addCases data parity

section

variable {β : Type} {k m : Nat} (data : Fin k → β) (parity : Fin m → β)

theorem stack_data (j : Fin k) : stack data parity (Fin.castAdd m j) = data j := Fin.addCases_left j

theorem stack_parity (p : Fin m) : stack data parity (Fin.natAdd k p) = parity p := Fin.addCases_right p

end

noncomputable section

variable {F : Type} [Field F] {k m n : Nat} (rows : Matrix (Fin (k + m)) (Fin k) F)

/-- The payload in chunks of the fragment size, padded with zeros. -/
def dataFragments (payload : List F) : Matrix (Fin k) (Fin n) F := fun j b => payload.getD (j * n + b) 0

def encodeInto (payload : List F) : Except KeeError (Shards F k m n) :=
  if payload.length > k * n then .error (.payloadTooLarge payload.length (k * n))
  else .ok (stack (fun j => dataFragments payload j) fun p => rows (Fin.natAdd k p) ᵥ* dataFragments payload)

def survivors (fragments : Slots F k m n) : List (Fin (k + m)) :=
  (List.finRange (k + m)).filter fun i => (fragments i).isSome

def missing (fragments : Slots F k m n) : List (Fin (k + m)) :=
  (List.finRange (k + m)).filter fun i => (fragments i).isNone

def validateFragmentSlots (fragments : Slots F k m n) : Except KeeError Unit :=
  if (missing fragments).length > m then .error (.tooManyFragmentsMissing (missing fragments).length m)
  else if (survivors fragments).length < k then .error (.tooFewFragmentsPresent (survivors fragments).length k)
  else .ok ()

/-- The first `k` survivors and the inverse of their rows. -/
structure DecodePlan (F : Type) (k m : Nat) where
  sources : Fin k → Fin (k + m)
  inverted : Matrix (Fin k) (Fin k) F

open Classical in
def buildDecodePlan (fragments : Slots F k m n) : Except KeeError (DecodePlan F k m) :=
  if h : ((survivors fragments).take k).length = k then
    let sources := fun j : Fin k => ((survivors fragments).take k).get (j.cast h.symm)
    if IsUnit (rows.submatrix sources id) then .ok ⟨sources, (rows.submatrix sources id)⁻¹⟩
    else .error (.codec "failed to invert ISA-L survivor matrix")
  else .error (.tooFewFragmentsPresent ((survivors fragments).take k).length k)

namespace DecodePlan

variable (plan : DecodePlan F k m) (fragments : Slots F k m n)

def sourceFragments : Matrix (Fin k) (Fin n) F := fun c => (fragments (plan.sources c)).getD 0

def decodeRow : Fin (k + m) → Fin k → F :=
  stack (fun j => plan.inverted j) fun p column => ∑ inner, plan.inverted inner column * rows (Fin.natAdd k p) inner

def prepared : Shards F k m n := fun i =>
  (fragments i).getD (plan.decodeRow rows i ᵥ* plan.sourceFragments fragments)

def decodedData : Matrix (Fin k) (Fin n) F := fun j =>
  (fragments (Fin.castAdd m j)).getD (plan.inverted j ᵥ* plan.sourceFragments fragments)

def software : Shards F k m n :=
  stack (fun j => plan.decodedData fragments j) fun p =>
    (fragments (Fin.natAdd k p)).getD (rows (Fin.natAdd k p) ᵥ* plan.decodedData fragments)

end DecodePlan

def preparedReconstruct (fragments : Slots F k m n) : Except KeeError (Shards F k m n) :=
  (validateFragmentSlots fragments).bind fun _ =>
    if (missing fragments).isEmpty then .ok fun i => (fragments i).getD 0
    else (buildDecodePlan rows fragments).map fun plan => plan.prepared rows fragments

def softwareReconstruct (fragments : Slots F k m n) : Except KeeError (Shards F k m n) :=
  (validateFragmentSlots fragments).bind fun _ =>
    (buildDecodePlan rows fragments).map fun plan => plan.software rows fragments

def erase (erased : Finset (Fin (k + m))) (shards : Shards F k m n) : Slots F k m n :=
  fun i => if i ∈ erased then none else some (shards i)

variable {rows}

theorem encodeInto_eq (code : Generator F k m) {payload : List F} (fits : payload.length ≤ k * n) :
    encodeInto code.rows payload = .ok (code.rows * (dataFragments payload : Matrix (Fin k) (Fin n) F)) := by
  rw [encodeInto, if_neg (Nat.not_lt.mpr fits)]
  congr 1
  funext i
  refine Fin.addCases (fun j => ?_) (fun p => ?_) i
  · rw [stack_data, Matrix.mul_apply_eq_vecMul, code.systematic, Matrix.single_one_vecMul]
    rfl
  · rw [stack_parity, Matrix.mul_apply_eq_vecMul]

omit [Field F] in
theorem length_missing_erase (erased : Finset (Fin (k + m))) (shards : Shards F k m n) :
    (missing (erase erased shards)).length = erased.card := by
  rw [missing, ← toFinset_card_of_nodup ((nodup_finRange _).filter _)]
  congr 1
  ext i
  by_cases hi : i ∈ erased <;> simp [erase, hi]

omit [Field F] in
theorem length_survivors (fragments : Slots F k m n) :
    (survivors fragments).length + (missing fragments).length = k + m := by
  have h := length_eq_length_filter_add (l := List.finRange (k + m)) fun i => (fragments i).isSome
  simp only [length_finRange, Option.not_isSome] at h
  exact h.symm

/-- With no more than `m` fragments missing there is a plan, and its sources are present and distinct. -/
theorem buildDecodePlan_ok (code : Generator F k m) {fragments : Slots F k m n}
    (few : (missing fragments).length ≤ m) :
    ∃ sources : Fin k → Fin (k + m), (∀ c, (fragments (sources c)).isSome) ∧
      IsUnit (code.rows.submatrix sources id) ∧
      buildDecodePlan code.rows fragments = .ok ⟨sources, (code.rows.submatrix sources id)⁻¹⟩ := by
  have hlength : ((survivors fragments).take k).length = k := by
    have := length_survivors fragments
    rw [length_take]
    omega
  have hnodup : ((survivors fragments).take k).Nodup :=
    ((nodup_finRange _).filter _).sublist (take_sublist _ _)
  let sources := fun j : Fin k => ((survivors fragments).take k).get (j.cast hlength.symm)
  have hunit : IsUnit (code.rows.submatrix sources id) :=
    code.mds sources fun i j hij => Fin.cast_injective _ (hnodup.injective_get hij)
  refine ⟨sources, fun c => ?_, hunit, ?_⟩
  · have hmem := mem_of_mem_take (get_mem ((survivors fragments).take k) (c.cast hlength.symm))
    exact (mem_filter.mp hmem).2
  · rw [buildDecodePlan, dif_pos hlength]
    exact if_pos hunit

theorem inverted_mul_sources (code : Generator F k m) {fragments : Slots F k m n} {data : Matrix (Fin k) (Fin n) F}
    (stored : ∀ i bytes, fragments i = some bytes → bytes = (code.rows * data) i) {sources : Fin k → Fin (k + m)}
    (present : ∀ c, (fragments (sources c)).isSome) (unit : IsUnit (code.rows.submatrix sources id)) :
    (code.rows.submatrix sources id)⁻¹ *
      DecodePlan.sourceFragments ⟨sources, (code.rows.submatrix sources id)⁻¹⟩ fragments = data := by
  have hsources : DecodePlan.sourceFragments ⟨sources, (code.rows.submatrix sources id)⁻¹⟩ fragments =
      code.rows.submatrix sources id * data := by
    funext c
    obtain ⟨bytes, hbytes⟩ := Option.isSome_iff_exists.mp (present c)
    simp only [DecodePlan.sourceFragments, hbytes, Option.getD_some]
    exact stored _ bytes hbytes
  rw [hsources, ← Matrix.mul_assoc, Matrix.nonsing_inv_mul _ ((Matrix.isUnit_iff_isUnit_det _).mp unit),
    Matrix.one_mul]

theorem reconstruct_stored (code : Generator F k m) {fragments : Slots F k m n} {data : Matrix (Fin k) (Fin n) F}
    (few : (missing fragments).length ≤ m)
    (stored : ∀ i bytes, fragments i = some bytes → bytes = (code.rows * data) i) :
    softwareReconstruct code.rows fragments = .ok (code.rows * data) ∧
      preparedReconstruct code.rows fragments = .ok (code.rows * data) := by
  obtain ⟨sources, present, unit, hplan⟩ := buildDecodePlan_ok code few
  have decoded := inverted_mul_sources code stored present unit
  have valid : validateFragmentSlots fragments = .ok () := by
    have := length_survivors fragments
    rw [validateFragmentSlots, if_neg (by omega), if_neg (by omega)]
  have hdata : ∀ j, (code.rows * data) (Fin.castAdd m j) = data j := fun j => by
    rw [Matrix.mul_apply_eq_vecMul, code.systematic, Matrix.single_one_vecMul]
    rfl
  -- a slot is the stored fragment or what is decoded in its place
  have filled : ∀ i decodedBytes, decodedBytes = (code.rows * data) i →
      (fragments i).getD decodedBytes = (code.rows * data) i := by
    intro i decodedBytes hdecoded
    cases hslot : fragments i with
    | none => exact hdecoded
    | some bytes => exact stored i bytes hslot
  constructor
  · rw [softwareReconstruct, valid, hplan]
    have hfull : DecodePlan.decodedData ⟨sources, (code.rows.submatrix sources id)⁻¹⟩ fragments = data := by
      funext j
      rw [DecodePlan.decodedData, filled _ _ (by rw [← Matrix.mul_apply_eq_vecMul, decoded, hdata]), hdata]
    refine congrArg Except.ok (funext fun i => ?_)
    unfold DecodePlan.software
    beta_reduce
    rw [hfull]
    refine Fin.addCases (fun j => ?_) (fun p => ?_) i
    · rw [stack_data, hdata]
    · rw [stack_parity, filled _ _ (Matrix.mul_apply_eq_vecMul _ _ _).symm]
  · rw [preparedReconstruct, valid]
    change (if _ then _ else _) = _
    split
    next none =>
      congr 1
      funext i
      cases hslot : fragments i with
      | none =>
        have hmem : i ∈ missing fragments := mem_filter.mpr ⟨mem_finRange i, by simp [hslot]⟩
        rw [isEmpty_iff.mp none] at hmem
        exact absurd hmem not_mem_nil
      | some bytes => exact stored i bytes hslot
    · rw [hplan]
      change Except.ok _ = _
      congr 1
      funext i
      refine filled i _ ?_
      refine Fin.addCases (fun j => ?_) (fun p => ?_) i
      · rw [DecodePlan.decodeRow, stack_data, ← Matrix.mul_apply_eq_vecMul, decoded, hdata]
      · have hrow : (fun column => ∑ inner, (code.rows.submatrix sources id)⁻¹ inner column *
            code.rows (Fin.natAdd k p) inner) = code.rows (Fin.natAdd k p) ᵥ* (code.rows.submatrix sources id)⁻¹ := by
          funext column
          simp only [Matrix.vecMul, dotProduct, mul_comm]
        rw [DecodePlan.decodeRow, stack_parity, hrow, Matrix.vecMul_vecMul, decoded, Matrix.mul_apply_eq_vecMul]

theorem reconstruct_erased (code : Generator F k m) {data : Matrix (Fin k) (Fin n) F} {erased : Finset (Fin (k + m))}
    (few : erased.card ≤ m) :
    softwareReconstruct code.rows (erase erased (code.rows * data)) = .ok (code.rows * data) ∧
      preparedReconstruct code.rows (erase erased (code.rows * data)) = .ok (code.rows * data) := by
  refine reconstruct_stored code ((length_missing_erase erased _).trans_le few) fun i bytes h => ?_
  simp only [erase] at h
  split at h
  · cases h
  · exact (Option.some.inj h).symm

def vandermondeRows (bytes : Fin 256 ↪ F) (total : k + m ≤ 256) : Matrix (Fin (k + m)) (Fin k) F :=
  fun r c => bytes (r.castLE total) ^ (c : Nat)

theorem isUnit_vandermondeRows (bytes : Fin 256 ↪ F) (total : k + m ≤ 256) {sources : Fin k → Fin (k + m)}
    (distinct : Function.Injective sources) : IsUnit ((vandermondeRows bytes total).submatrix sources id) := by
  have h : (vandermondeRows bytes total).submatrix sources id =
      Matrix.vandermonde fun c => bytes ((sources c).castLE total) := rfl
  rw [h, Matrix.isUnit_iff_isUnit_det, isUnit_iff_ne_zero, Matrix.det_vandermonde_ne_zero_iff]
  exact bytes.injective.comp ((Fin.castLE_injective total).comp distinct)

def softwareGenerator (bytes : Fin 256 ↪ F) (total : k + m ≤ 256) : Generator F k m where
  rows := vandermondeRows bytes total * ((vandermondeRows bytes total).submatrix (Fin.castAdd m) id)⁻¹
  systematic j := by
    have unit := isUnit_vandermondeRows bytes total (Fin.castAdd_injective k m)
    have top := Matrix.mul_nonsing_inv _ ((Matrix.isUnit_iff_isUnit_det _).mp unit)
    funext c
    exact (congrFun (congrFun top j) c).trans (by rw [Matrix.one_apply, Pi.single_apply]; simp only [eq_comm])
  mds sources distinct := by
    have unit := isUnit_vandermondeRows bytes total (Fin.castAdd_injective k m)
    exact (isUnit_vandermondeRows bytes total distinct).mul ((Matrix.isUnit_nonsing_inv_iff).mpr unit)

/-- The generator that `gf_gen_rs_matrix` writes. -/
def isaLRows (bytes : Fin 256 ↪ F) : Matrix (Fin (k + m)) (Fin k) F :=
  stack (fun j => Pi.single j 1) fun p c => (bytes 2 ^ (p : Nat)) ^ (c : Nat)

inductive BackendKind
  | isaL
  | software
  deriving DecidableEq

def planSupports (k m : Nat) : Bool := k = 8 && m = 2

variable (bytes : Fin 256 ↪ F) (total : k + m ≤ 256)

def encode (backend : BackendKind) (payload : List F) : Except KeeError (Shards F k m n) :=
  if backend = .isaL ∧ planSupports k m then encodeInto (isaLRows bytes) payload
  else encodeInto (softwareGenerator bytes total).rows payload

def reconstruct (backend : BackendKind) (fragments : Slots F k m n) : Except KeeError (Shards F k m n) :=
  if backend = .isaL ∧ planSupports k m then preparedReconstruct (isaLRows bytes) fragments
  else softwareReconstruct (softwareGenerator bytes total).rows fragments

def fieldBytes : Fin 256 ↪ GaloisField 2 8 :=
  have card : Nat.card (GaloisField 2 8) = 256 := GaloisField.card 2 8 (by decide)
  haveI : Finite (GaloisField 2 8) := Nat.finite_of_card_ne_zero (by rw [card]; decide)
  (Finite.equivFinOfCardEq card).symm.toEmbedding

end

end KeInFS.Kee
