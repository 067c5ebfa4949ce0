import KeInFS.Kms.WriteIntent
import KeInFS.Kas.Allocator

namespace KeInFS

/-- A mutation RPC that fails may have been executed for some of its reservations. -/
inductive KasOutcome
  | success
  | failure (status : Status) (executed : List String)

/-- The reservations each endpoint holds as Reserved, and the number of RPCs sent. -/
structure KasExchange where
  held : String → List String
  sent : Nat := 0

structure AllocationShardRoute where
  shardId : String
  endpoint : String
  deriving DecidableEq, Repr

/-- The values of the route map, one for each endpoint, in the map's order; `client` is the balancer's next one. -/
structure KasView where
  routes : List AllocationShardRoute
  endpoints : List String
  client : String

abbrev KasCall := KasExchange → Except Status Unit × KasExchange

namespace KasCall

def nothing : KasCall := fun x => (.ok (), x)

def andThen (first next : KasCall) : KasCall := fun x =>
  match first x with
  | (.ok (), x) => next x
  | (.error status, x) => (.error status, x)

def each {α : Type} (f : α → KasCall) : List α → KasCall
  | [] => nothing
  | a :: as => andThen (f a) (each f as)

end KasCall

open KasCall List

/-- `slice::chunks` -/
def mutationChunks (size : Nat) (mutations : List ReservationMutationSpec) : List (List ReservationMutationSpec) :=
  ((range (mutations.length / size + 1)).map fun i => (mutations.drop (i * size)).take size).filter (· ≠ [])

def reservationShardId (reservationId : String) : Option String :=
  (splitOnce '/' reservationId.toList).bind fun parts =>
    if parts.1.all Char.isWhitespace then none else some (String.ofList parts.1)

def KasView.route (view : KasView) (reservationId : String) : Option AllocationShardRoute :=
  (reservationShardId reservationId).bind fun shardId => view.routes.find? fun route => route.shardId = shardId

/-- The group of one route of `group_mutations_by_route`. -/
def KasView.grouped (view : KasView) (route : AllocationShardRoute) (mutations : List ReservationMutationSpec) :
    List ReservationMutationSpec :=
  mutations.filter fun mutation =>
    (view.route mutation.reservationId).map AllocationShardRoute.endpoint = some route.endpoint

def KasView.unmatchedMutations (view : KasView) (mutations : List ReservationMutationSpec) :
    List ReservationMutationSpec :=
  mutations.filter fun mutation => view.route mutation.reservationId = none

structure ReservationMutationWork where
  intentId : Option String
  finalizePlans : List ReservationFinalizePlan
  reservationIds : List String

def buildReservationMutations (finalizePlans : List ReservationFinalizePlan) (reservationIds : List String) :
    List ReservationMutationSpec × List ReservationMutationSpec :=
  let known := finalizePlans.map ReservationFinalizePlan.reservationId
  ((finalizePlans.filter fun plan => plan.placementIndexes ≠ []).map fun plan =>
      ⟨plan.reservationId, plan.placementIndexes⟩,
    (finalizePlans.filter fun plan => plan.placementIndexes = []).map (fun plan => ⟨plan.reservationId, []⟩) ++
      (reservationIds.filter fun id => id ∉ known).eraseDups.map fun id => ⟨id, []⟩)

def isIdempotentReservationFinalizeError (status : Status) : Bool :=
  status.code = .failedPrecondition ∧ ("is not releasable".toList <:+: status.message.toList ∨
    "is not finalizable".toList <:+: status.message.toList)

section Exchange

variable (outcomes : Nat → KasOutcome) (view : Nat → KasView) (batchSize : Nat)

def mutateBatch (endpoint : String) (mutations : List ReservationMutationSpec) : KasCall := fun x =>
  let ids := mutations.map ReservationMutationSpec.reservationId
  let without (executed : List String) : KasExchange :=
    ⟨fun e => if e = endpoint then (x.held e).filter (· ∉ executed) else x.held e, x.sent + 1⟩
  match outcomes x.sent with
  | .success => (.ok (), without ids)
  | .failure status executed => (.error status, without (ids.filter (· ∈ executed)))

/-- `send_finalize_mutation_batches` and `send_release_mutation_batches` differ in the RPC only. -/
def sendMutationBatches (endpoint : String) (mutations : List ReservationMutationSpec) : KasCall :=
  each (mutateBatch outcomes endpoint) (mutationChunks (max batchSize 1) mutations)

def sendBoth (endpoint : String) (finalize release : List ReservationMutationSpec) : KasCall :=
  andThen (sendMutationBatches outcomes batchSize endpoint finalize)
    (sendMutationBatches outcomes batchSize endpoint release)

/-- By the routes of their shards, and what no route serves to every endpoint. -/
def sendReservationMutationBatches (finalize release : List ReservationMutationSpec) : KasCall := fun x =>
  let view := view x.sent
  if finalize = [] ∧ release = [] then nothing x
  else if view.routes = [] then sendBoth outcomes batchSize view.client finalize release x
  else andThen
    (each (fun route => sendBoth outcomes batchSize route.endpoint (view.grouped route finalize)
      (view.grouped route release)) view.routes)
    (each (fun endpoint => sendBoth outcomes batchSize endpoint (view.unmatchedMutations finalize)
      (view.unmatchedMutations release)) view.endpoints) x

/-- A work whose intent is marked, and the exchange at that moment. -/
abbrev ReservationMark := ReservationMutationWork × KasExchange

def ReservationMutationWork.mark (work : ReservationMutationWork) (x : KasExchange) : List ReservationMark :=
  if work.intentId.isSome then [(work, x)] else []

def finalizeReservations (work : ReservationMutationWork) : KasCall :=
  let mutations := buildReservationMutations work.finalizePlans work.reservationIds
  sendReservationMutationBatches outcomes view batchSize mutations.1 mutations.2

def processReservationMutationWork (work : ReservationMutationWork) (x : KasExchange) :
    List ReservationMark × KasExchange :=
  match finalizeReservations outcomes view batchSize work x with
  | (.ok (), x) => (work.mark x, x)
  | (.error status, x) => (if isIdempotentReservationFinalizeError status then work.mark x else [], x)

def processWorks : List ReservationMutationWork → KasExchange → List ReservationMark × KasExchange
  | [], x => ([], x)
  | work :: works, x =>
    let (marks, x) := processReservationMutationWork outcomes view batchSize work x
    let (rest, x) := processWorks works x
    (marks ++ rest, x)

def processReservationMutationBatch (works : List ReservationMutationWork) (x : KasExchange) :
    List ReservationMark × KasExchange :=
  let mutations := works.map fun work => buildReservationMutations work.finalizePlans work.reservationIds
  match sendReservationMutationBatches outcomes view batchSize (mutations.flatMap Prod.fst) (mutations.flatMap Prod.snd)
      x with
  | (.ok (), x) => (works.flatMap (·.mark x), x)
  | (.error _, x) => processWorks outcomes view batchSize works x

def finalizeIntentReservations (intent : WriteIntent) : KasExchange → List ReservationMark × KasExchange :=
  processReservationMutationWork outcomes view batchSize
    ⟨some intent.intentId, buildFinalizePlans intent, intent.reservationIds⟩

end Exchange

/-- Nothing becomes held; after a success the pairs of `P` are not; an error is not taken for a success. -/
structure Settles (x : KasExchange) (result : Except Status Unit × KasExchange) (P : String → String → Prop) :
    Prop where
  shrinks : ∀ endpoint id, id ∈ result.2.held endpoint → id ∈ x.held endpoint
  settles : result.1 = .ok () → ∀ endpoint id, P endpoint id → id ∉ result.2.held endpoint
  plain : ∀ status, result.1 = .error status → isIdempotentReservationFinalizeError status = false

section Rules

variable {x : KasExchange} {P Q : String → String → Prop} {result : Except Status Unit × KasExchange}

theorem Settles.mono (h : Settles x result P) (hsub : ∀ endpoint id, Q endpoint id → P endpoint id) :
    Settles x result Q :=
  ⟨h.shrinks, fun hok endpoint id hq => h.settles hok endpoint id (hsub endpoint id hq), h.plain⟩

theorem settles_nothing : Settles x (nothing x) fun _ _ => False :=
  ⟨fun _ _ h => h, fun _ _ _ h => h.elim, fun _ h => nomatch h⟩

theorem Settles.andThen {f g : KasCall} (hf : Settles x (f x) P) (hg : ∀ y, Settles y (g y) Q) :
    Settles x (andThen f g x) fun endpoint id => P endpoint id ∨ Q endpoint id := by
  unfold KasCall.andThen
  split
  next y hy =>
    rw [hy] at hf
    refine ⟨fun endpoint id h => hf.shrinks endpoint id ((hg y).shrinks endpoint id h), fun hok endpoint id h => ?_,
      (hg y).plain⟩
    rcases h with hp | hq
    · exact fun hm => hf.settles rfl endpoint id hp ((hg y).shrinks endpoint id hm)
    · exact (hg y).settles hok endpoint id hq
  next hy =>
    rw [hy] at hf
    exact ⟨hf.shrinks, fun hok => (nomatch hok), hf.plain⟩

theorem settles_each {α : Type} {f : α → KasCall} {P : α → String → String → Prop} (as : List α)
    (h : ∀ a y, Settles y (f a y) (P a)) :
    Settles x (each f as x) fun endpoint id => ∃ a ∈ as, P a endpoint id := by
  induction as generalizing x with
  | nil => exact settles_nothing.mono fun _ _ ⟨_, ha, _⟩ => nomatch ha
  | cons a as ih =>
    refine ((h a x).andThen fun y => ih).mono fun endpoint id ⟨b, hb, hp⟩ => ?_
    rcases mem_cons.mp hb with rfl | hb
    · exact Or.inl hp
    · exact Or.inr ⟨b, hb, hp⟩

end Rules

theorem mem_mutationChunks {size : Nat} {mutations : List ReservationMutationSpec} {m : ReservationMutationSpec}
    (hsize : 0 < size) (hm : m ∈ mutations) : ∃ chunk ∈ mutationChunks size mutations, m ∈ chunk := by
  obtain ⟨i, hi⟩ := List.getElem?_of_mem hm
  have hlt := (List.getElem?_eq_some_iff.mp hi).1
  have hin : m ∈ (mutations.drop (i / size * size)).take size := by
    apply mem_of_getElem? (i := i % size)
    rw [List.getElem?_take_of_lt (Nat.mod_lt i hsize), List.getElem?_drop, Nat.div_add_mod']
    exact hi
  refine ⟨_, mem_filter.mpr ⟨mem_map.mpr ⟨i / size, mem_range.mpr ?_, rfl⟩, ?_⟩, hin⟩
  · exact Nat.lt_succ_of_le (Nat.div_le_div_right hlt.le)
  · exact decide_eq_true (ne_nil_of_mem hin)

def ReservationMutationWork.named (work : ReservationMutationWork) : List String :=
  work.finalizePlans.map ReservationFinalizePlan.reservationId ++ work.reservationIds

theorem mem_buildReservationMutations {work : ReservationMutationWork} {id : String} (h : id ∈ work.named) :
    let mutations := buildReservationMutations work.finalizePlans work.reservationIds
    ∃ m ∈ mutations.1 ++ mutations.2, m.reservationId = id := by
  by_cases hknown : id ∈ work.finalizePlans.map ReservationFinalizePlan.reservationId
  · obtain ⟨plan, hplan, rfl⟩ := mem_map.mp hknown
    by_cases hindexes : plan.placementIndexes = []
    · refine ⟨⟨plan.reservationId, []⟩, mem_append_right _ (mem_append_left _ ?_), rfl⟩
      exact mem_map.mpr ⟨plan, by simp [hplan, hindexes], rfl⟩
    refine ⟨⟨plan.reservationId, plan.placementIndexes⟩, mem_append_left _ ?_, rfl⟩
    exact mem_map.mpr ⟨plan, by simp [hplan, hindexes], rfl⟩
  · have hid : id ∈ work.reservationIds := (mem_append.mp h).resolve_left hknown
    refine ⟨⟨id, []⟩, mem_append_right _ (mem_append_right _ ?_), rfl⟩
    exact mem_map.mpr ⟨id, mem_eraseDups.mpr (mem_filter.mpr ⟨hid, decide_eq_true hknown⟩), rfl⟩

/-- The endpoint is one that a mutation of the reservation is sent to. -/
def KasView.reaches (view : KasView) (id endpoint : String) : Bool :=
  if view.routes = [] then endpoint = view.client
  else match view.route id with
    | some route => endpoint = route.endpoint
    | none => endpoint ∈ view.endpoints

theorem ReservationMutationWork.eq_of_mem_mark {work : ReservationMutationWork} {x : KasExchange}
    {mark : ReservationMark} (h : mark ∈ work.mark x) : mark = (work, x) := by
  unfold ReservationMutationWork.mark at h
  split at h
  · exact mem_singleton.mp h
  · cases h

section Settled

variable {outcomes : Nat → KasOutcome} (view : Nat → KasView) {batchSize : Nat} {x : KasExchange}
  (clean : ∀ n status executed, outcomes n = .failure status executed →
    isIdempotentReservationFinalizeError status = false)
include clean

theorem mutateBatch_settles (endpoint : String) (mutations : List ReservationMutationSpec) :
    Settles x (mutateBatch outcomes endpoint mutations x) fun e id =>
      e = endpoint ∧ ∃ m ∈ mutations, m.reservationId = id := by
  unfold mutateBatch
  have hshrinks : ∀ (executed : List String) (e id : String),
      (id ∈ if e = endpoint then (x.held e).filter (· ∉ executed) else x.held e) → id ∈ x.held e := by
    intro executed e id h
    split at h
    · exact (mem_filter.mp h).1
    · exact h
  split
  · refine ⟨hshrinks _, fun _ e id ⟨he, m, hm, hid⟩ h => ?_, fun _ h => nomatch h⟩
    dsimp only at h
    rw [if_pos he] at h
    exact of_decide_eq_true (mem_filter.mp h).2 (mem_map.mpr ⟨m, hm, hid⟩)
  next houtcome =>
    refine ⟨hshrinks _, fun h => (nomatch h), fun other h => ?_⟩
    cases h
    exact clean _ _ _ houtcome

theorem sendBoth_settles (endpoint : String) (finalize release : List ReservationMutationSpec) :
    Settles x (sendBoth outcomes batchSize endpoint finalize release x) fun e id =>
      e = endpoint ∧ ∃ m ∈ finalize ++ release, m.reservationId = id := by
  have hbatches : ∀ mutations y, Settles y (sendMutationBatches outcomes batchSize endpoint mutations y) fun e id =>
      e = endpoint ∧ ∃ m ∈ mutations, m.reservationId = id := by
    intro mutations y
    refine (settles_each _ fun chunk z => mutateBatch_settles clean endpoint chunk).mono ?_
    rintro e _ ⟨he, m, hm, hid⟩
    obtain ⟨chunk, hchunk, hin⟩ := mem_mutationChunks (lt_max_of_lt_right Nat.one_pos) hm
    exact ⟨chunk, hchunk, he, m, hin, hid⟩
  refine ((hbatches finalize x).andThen (hbatches release)).mono ?_
  rintro e _ ⟨he, m, hm, hid⟩
  exact (mem_append.mp hm).imp (fun h => ⟨he, m, h, hid⟩) fun h => ⟨he, m, h, hid⟩

theorem sendReservationMutationBatches_settles (finalize release : List ReservationMutationSpec) :
    Settles x (sendReservationMutationBatches outcomes view batchSize finalize release x) fun e id =>
      (view x.sent).reaches id e ∧ ∃ m ∈ finalize ++ release, m.reservationId = id := by
  unfold sendReservationMutationBatches
  dsimp only
  split
  next hnone =>
    obtain ⟨rfl, rfl⟩ := hnone
    exact settles_nothing.mono fun e id ⟨_, m, hm, _⟩ => nomatch hm
  split
  next hroutes =>
    refine (sendBoth_settles clean _ _ _).mono fun e id ⟨hreach, hm⟩ => ⟨?_, hm⟩
    rw [KasView.reaches, if_pos hroutes] at hreach
    exact of_decide_eq_true hreach
  next hroutes =>
    refine ((settles_each _ fun route y => sendBoth_settles clean route.endpoint ((view x.sent).grouped route finalize)
      ((view x.sent).grouped route release)).andThen fun y => settles_each _ fun endpoint z =>
        sendBoth_settles clean endpoint _ _).mono ?_
    rintro e _ ⟨hreach, m, hm, rfl⟩
    rw [KasView.reaches, if_neg hroutes] at hreach
    split at hreach
    next route hroute =>
      have hmem : route ∈ (view x.sent).routes := by
        obtain ⟨_, _, hfind⟩ := Option.bind_eq_some_iff.mp hroute
        exact mem_of_find?_eq_some hfind
      refine Or.inl ⟨route, hmem, of_decide_eq_true hreach, m, ?_, rfl⟩
      rw [KasView.grouped, KasView.grouped, ← filter_append]
      exact mem_filter.mpr ⟨hm, by simp [hroute]⟩
    next hroute =>
      refine Or.inr ⟨e, of_decide_eq_true hreach, rfl, m, ?_, rfl⟩
      rw [KasView.unmatchedMutations, KasView.unmatchedMutations, ← filter_append]
      exact mem_filter.mpr ⟨hm, decide_eq_true hroute⟩

variable (reached : ∀ n endpoint id, id ∈ x.held endpoint → (view n).reaches id endpoint)
include reached

theorem settled_of_ok {finalize release : List ReservationMutationSpec} {y : KasExchange} {id : String}
    (h : sendReservationMutationBatches outcomes view batchSize finalize release x = (.ok (), y))
    (hid : ∃ m ∈ finalize ++ release, m.reservationId = id) (endpoint : String) : id ∉ y.held endpoint := by
  intro hheld
  have hsettles := h ▸ sendReservationMutationBatches_settles view clean finalize release
  exact hsettles.settles rfl endpoint id ⟨reached _ _ _ (hsettles.shrinks endpoint id hheld), hid⟩ hheld

theorem processWork_settles (work : ReservationMutationWork) :
    let processed := processReservationMutationWork outcomes view batchSize work x
    (∀ endpoint id, id ∈ processed.2.held endpoint → id ∈ x.held endpoint) ∧
      ∀ mark ∈ processed.1, ∀ id ∈ mark.1.named, ∀ endpoint, id ∉ mark.2.held endpoint := by
  unfold processReservationMutationWork finalizeReservations
  split
  next hy =>
    refine ⟨(hy ▸ sendReservationMutationBatches_settles view clean _ _).shrinks, fun mark hmark id hid => ?_⟩
    cases ReservationMutationWork.eq_of_mem_mark hmark
    exact settled_of_ok view clean reached hy (mem_buildReservationMutations hid)
  next status y hy =>
    have hsettles := hy ▸ sendReservationMutationBatches_settles view clean _ _
    refine ⟨hsettles.shrinks, fun mark hmark => ?_⟩
    simp [hsettles.plain status rfl] at hmark

theorem processWorks_settles (works : List ReservationMutationWork) :
    ∀ mark ∈ (processWorks outcomes view batchSize works x).1, ∀ id ∈ mark.1.named, ∀ endpoint,
      id ∉ mark.2.held endpoint := by
  induction works generalizing x with
  | nil => simp [processWorks]
  | cons work works ih =>
    obtain ⟨hshrinks, hmarks⟩ := processWork_settles view clean reached work
    intro mark hmark
    rcases mem_append.mp hmark with hfirst | hrest
    · exact hmarks mark hfirst
    · exact ih (fun n endpoint id h => reached n endpoint id (hshrinks endpoint id h)) mark hrest

end Settled

def reservingWork : ReservationMutationWork := ⟨some "i1", [], ["s/r1", "s/r2"]⟩

def oneShardView : KasView := ⟨[⟨"s", "kas0"⟩], ["kas0"], "kas0"⟩

def reservedExchange : KasExchange := { held := fun endpoint => if endpoint = "kas0" then ["s/r2"] else [] }

def reservingMarks (outcome : KasOutcome) : List ReservationMark :=
  (processReservationMutationBatch (fun _ => outcome) (fun _ => oneShardView) 1 [reservingWork] reservedExchange).1

end KeInFS
