import Convergence.Application
import Convergence.Proofs.Store.Following
/-!
# Creating the integrations of seeds

A record is created if its id is free, and then it is all that the store gains (`gains_create`).  So
seeds are created one after another as long as their ids are free (`plant_append`), and the first
one whose id is taken ends it (`plant_of_taken`).

Seeds without an id get ids that are made up.  If these are new (`FreshIds`), they take part in no
clash: whether all seeds can be created depends on the ids that they name
(`admits_integrations_iff`).  `planted_seed` puts it together: all seeds are created, or exactly
those before the first clash.
-/

namespace Convergence

/-! ## What a store gains -/

namespace Store

variable {s s' s'' : Store} {added added' : List Integration} {i : Integration}

/-- The store has gained these records, announced in this order, and nothing else has changed. -/
structure Gains (s s' : Store) (added : List Integration) : Prop where
  /-- Every record that was there is still there as it was. -/
  record?_iff : ∀ id j, s'.record? id = some j ↔ s.record? id = some j ∨ j ∈ added ∧ j.id = id
  bus : s'.bus = if s.announces then
    added.foldl (fun b j => (b.broadcast (announcement .created j.id)).2) s.bus else s.bus
  announces : s'.announces = s.announces
  faults : s'.faults = s.faults

lemma Gains.refl (s : Store) : Gains s s [] where
  record?_iff id j := by simp
  bus := by simp
  announces := rfl
  faults := rfl

lemma Gains.kept (h : Gains s s' added) {id : IntegrationId} (hi : s.record? id = some i) :
    s'.record? id = some i :=
  (h.record?_iff id i).2 (Or.inl hi)

lemma Gains.trans (h : Gains s s' added) (h' : Gains s' s'' added') :
    Gains s s'' (added ++ added') where
  record?_iff id j := by
    rw [h'.record?_iff, h.record?_iff, List.mem_append, or_and_right, or_assoc]
  bus := by
    rw [h'.bus, h.announces, h.bus, List.foldl_append]
    split <;> rfl
  announces := h'.announces.trans h.announces
  faults := h'.faults.trans h.faults

/-- A record under a free id is created. -/
lemma gains_create (hfaults : s.faults .create = 0) (hfree : s.record? i.id = none) :
    ∃ s', s.create i = (.ok i, s') ∧ Gains s s' [i] := by
  have hcontains : s.records.contains i.id = false := by
    rw [Dict.contains, show s.records.find? i.id = none from hfree]
    rfl
  refine ⟨({ s with records := s.records.insert i.id i } : Store).announce .created i.id,
    by simp [create, enter, hfaults, hcontains], ?_⟩
  exact
    { record?_iff := fun id j => by
        rw [record?, records_announce, Dict.find?_insert]
        split
        · next hid =>
          subst hid
          rw [hfree, List.mem_singleton]
          constructor
          · rintro ⟨rfl⟩
            exact Or.inr ⟨rfl, rfl⟩
          · rintro (h | ⟨rfl, -⟩)
            · cases h
            · rfl
        · next hid =>
          refine ⟨Or.inl, ?_⟩
          rintro (h | ⟨hj, rfl⟩)
          · exact h
          · exact absurd (congrArg Integration.id (List.mem_singleton.1 hj)) hid
      bus := by
        rw [announce]
        split <;> rfl
      announces := by
        rw [announce]
        split <;> rfl
      faults := by rw [faults_announce] }

/-- A record under an id that is taken is not created, and nothing changes. -/
lemma create_of_taken (hfaults : s.faults .create = 0) (htaken : (s.record? i.id).isSome = true) :
    s.create i = (.error (.alreadyExists i.id), s) := by
  have hcontains : s.records.contains i.id = true := htaken
  simp [create, enter, hfaults, hcontains]

/-- What is not there is what was not there and was not gained. -/
lemma Gains.record?_eq_none_iff (h : Gains s s' added) {id : IntegrationId} :
    s'.record? id = none ↔ s.record? id = none ∧ ∀ j ∈ added, j.id ≠ id := by
  simp only [Option.eq_none_iff_forall_ne_some, Ne, h.record?_iff, not_or, not_and, forall_and]

/-- The records can be created in this store, one after another. -/
def Admits (s : Store) (added : List Integration) : Prop :=
  (added.map (·.id)).Nodup ∧ ∀ j ∈ added, s.record? j.id = none

/-- Once the first record is created, the others can still be created. -/
lemma Admits.tail (h : s.Admits (i :: added)) (hgains : Gains s s' [i]) : s'.Admits added := by
  obtain ⟨hnot, hnodup⟩ := List.nodup_cons.1 h.1
  refine ⟨hnodup, fun j hj => hgains.record?_eq_none_iff.2 ⟨h.2 j (by simp [hj]), ?_⟩⟩
  intro k hk heq
  rw [List.mem_singleton.1 hk] at heq
  exact hnot (List.mem_map.2 ⟨j, hj, heq.symm⟩)

end Store

namespace Application

variable {site : Site} {before rest seeds : List Seed} {s : Seed} {id : IntegrationId}

/-! ## Ids named and ids made up -/

/-- The ids that seeds name. -/
def namedIds (seeds : List Seed) : List IntegrationId := seeds.filterMap (·.id)

/-- How many of the seeds name no id. -/
def unnamed (seeds : List Seed) : Nat := seeds.countP (·.id.isNone)

/-- The ids that are made up for the seeds that name none. -/
def madeUpIds (site : Site) (seeds : List Seed) : List IntegrationId :=
  (List.range (unnamed seeds)).map fun k => site.idAt (site.issued + k)

/-- The integrations of seeds: those that name no id get the made-up ones in turn. -/
def integrations (site : Site) (seeds : List Seed) : List Integration :=
  seeds.mapIdx fun k s =>
    s.integration (site.idAt (site.issued + unnamed (seeds.take k))) site.clock

/-- The made-up ids are new. -/
structure FreshIds (site : Site) (seeds : List Seed) : Prop where
  nodup : (madeUpIds site seeds).Nodup
  unstored : ∀ id ∈ madeUpIds site seeds, site.store.record? id = none
  unclaimed : ∀ id ∈ madeUpIds site seeds, id ∉ namedIds seeds

/-- The ids that the seeds name differ from one another and from those in the store. -/
def Fits (store : Store) (seeds : List Seed) : Prop :=
  (namedIds seeds).Nodup ∧ ∀ id ∈ namedIds seeds, store.record? id = none

lemma integrations_cons (site : Site) (store : Store) (s : Seed) (rest : List Seed) :
    integrations site (s :: rest) = s.integration (site.idAt site.issued) site.clock ::
      integrations { site with store, issued := site.issued + unnamed [s] } rest := by
  have hunnamed : ∀ k, unnamed ((s :: rest).take (k + 1)) = unnamed [s] + unnamed (rest.take k) :=
    fun k => by rw [List.take_succ_cons, unnamed, ← List.singleton_append, List.countP_append]; rfl
  rw [integrations, List.mapIdx_cons]
  simp only [hunnamed, ← Nat.add_assoc]
  rfl

/-- Each integration has the id that its seed names, or one that was made up. -/
lemma perm_ids_integrations (site : Site) (seeds : List Seed) :
    ((integrations site seeds).map (·.id)).Perm (namedIds seeds ++ madeUpIds site seeds) := by
  induction seeds generalizing site with
  | nil => rfl
  | cons s rest ih =>
    have hrest := ih { site with issued := site.issued + unnamed [s] }
    rw [integrations_cons site site.store, List.map_cons]
    cases hid : s.id with
    | some id =>
      have hnamed : namedIds (s :: rest) = id :: namedIds rest := by simp [namedIds, hid]
      have hzero : unnamed [s] = 0 := by simp [unnamed, hid]
      have hmade : madeUpIds site (s :: rest) = madeUpIds site rest := by
        simp [madeUpIds, unnamed, hid]
      rw [hnamed, hmade, Seed.integration, hid]
      rw [hzero] at hrest ⊢
      exact hrest.cons id
    | none =>
      -- the seed takes the first made-up id, and the other seeds have those behind it
      have hnamed : namedIds (s :: rest) = namedIds rest := by simp [namedIds, hid]
      have hone : unnamed [s] = 1 := by simp [unnamed, hid]
      have hmade : madeUpIds site (s :: rest) = site.idAt site.issued ::
          madeUpIds { site with issued := site.issued + 1 } rest := by
        have hcount : unnamed (s :: rest) = unnamed rest + 1 := by simp [unnamed, hid]
        simp [madeUpIds, hcount, List.range_succ_eq_map, Function.comp_def, Nat.add_assoc,
          Nat.add_comm 1]
      rw [hnamed, hmade, Seed.integration, hid]
      rw [hone] at hrest ⊢
      exact (hrest.cons _).trans List.perm_middle.symm

lemma mem_ids_integrations (site : Site) (hmem : id ∈ namedIds seeds) :
    ∃ i ∈ integrations site seeds, i.id = id :=
  List.mem_map.1 ((perm_ids_integrations site seeds).mem_iff.2 (List.mem_append_left _ hmem))

/-- With new ids, the seeds can be created if the ids that they name are free. -/
lemma admits_integrations_iff (hfresh : FreshIds site seeds) :
    site.store.Admits (integrations site seeds) ↔ Fits site.store seeds := by
  have hperm := perm_ids_integrations site seeds
  have hfree : (∀ i ∈ integrations site seeds, site.store.record? i.id = none) ↔
      ∀ id ∈ namedIds seeds ++ madeUpIds site seeds, site.store.record? id = none := by
    simp only [← hperm.mem_iff, List.forall_mem_map]
  rw [Store.Admits, Fits, hfree, hperm.nodup_iff, List.nodup_append, List.forall_mem_append]
  constructor
  · rintro ⟨⟨hnodup, -, -⟩, hnone, -⟩
    exact ⟨hnodup, hnone⟩
  · rintro ⟨hnodup, hnone⟩
    refine ⟨⟨hnodup, hfresh.nodup, fun id hid id' hid' heq => ?_⟩, hnone, hfresh.unstored⟩
    exact hfresh.unclaimed id' hid' (heq ▸ hid)

lemma FreshIds.of_append (h : FreshIds site (before ++ rest)) : FreshIds site before := by
  have hle : unnamed before ≤ unnamed (before ++ rest) := by
    rw [unnamed, unnamed, List.countP_append]
    exact Nat.le_add_right _ _
  have hsub : (madeUpIds site before).Sublist (madeUpIds site (before ++ rest)) :=
    (List.range_sublist.2 hle).map _
  have hnamed : ∀ id ∈ namedIds before, id ∈ namedIds (before ++ rest) := fun id hid => by
    rw [namedIds, List.filterMap_append]
    exact List.mem_append_left _ hid
  exact ⟨h.nodup.sublist hsub, fun id hid => h.unstored id (hsub.subset hid),
    fun id hid hmem => h.unclaimed id (hsub.subset hid) (hnamed id hmem)⟩

/-! ## One seed after another -/

/-- A seed whose id is free is created. -/
lemma plant_cons (hfaults : site.store.faults .create = 0)
    (hfree : site.store.record? (s.integration (site.idAt site.issued) site.clock).id = none)
    (rest : List Seed) : ∃ store,
      site.store.Gains store [s.integration (site.idAt site.issued) site.clock] ∧
      plant (s :: rest) site
        = plant rest { site with store, issued := site.issued + unnamed [s] } := by
  obtain ⟨store, hcreate, hgains⟩ := Store.gains_create hfaults hfree
  refine ⟨store, hgains, ?_⟩
  have hissued : (if s.id.isNone then site.issued + 1 else site.issued)
      = site.issued + unnamed [s] := by
    cases hid : s.id <;> simp [unnamed, hid]
  simp only [plant, hcreate, hissued]

/-- A seed whose id is taken ends it. -/
lemma plant_of_taken (hfaults : site.store.faults .create = 0) (hid : s.id = some id)
    (htaken : (site.store.record? id).isSome = true) (rest : List Seed) :
    plant (s :: rest) site = (.error (.seed (.alreadyExists id)), site) := by
  have hname : (s.integration (site.idAt site.issued) site.clock).id = id := by
    simp [Seed.integration, hid]
  have hcreate := Store.create_of_taken hfaults (hname.symm ▸ htaken)
  rw [hname] at hcreate
  simp [plant, hcreate, hid]

/-- Seeds are created one after another as long as their ids are free. -/
lemma plant_append (hfaults : site.store.faults .create = 0)
    (h : site.store.Admits (integrations site before)) (rest : List Seed) : ∃ store,
      site.store.Gains store (integrations site before) ∧
      plant (before ++ rest) site
        = plant rest { site with store, issued := site.issued + unnamed before } := by
  induction before generalizing site with
  | nil => exact ⟨site.store, .refl _, rfl⟩
  | cons s before ih =>
    rw [integrations_cons site site.store] at h
    obtain ⟨store, hgains, hplant⟩ :=
      plant_cons hfaults (h.2 _ List.mem_cons_self) (before ++ rest)
    obtain ⟨store', hgains', hplant'⟩ :=
      @ih { site with store, issued := site.issued + unnamed [s] } (hgains.faults ▸ hfaults)
        (h.tail hgains)
    refine ⟨store', ?_, ?_⟩
    · rw [integrations_cons site store]
      exact hgains.trans hgains'
    · have hissued : site.issued + unnamed [s] + unnamed before
          = site.issued + unnamed (s :: before) := by
        rw [Nat.add_assoc, unnamed, unnamed, ← List.countP_append]
        rfl
      rw [List.cons_append, hplant, hplant', hissued]

/-! ## The first clash -/

/-- The first seed whose id is in the store or was named by an earlier seed. -/
structure FirstClash (store : Store) (seeds before : List Seed) (id : IntegrationId) : Prop where
  place : ∃ s rest, seeds = before ++ s :: rest ∧ s.id = some id
  taken : (store.record? id).isSome = true ∨ id ∈ namedIds before
  first : Fits store before

lemma exists_firstClash {store : Store} (h : ¬ Fits store seeds) :
    ∃ before id, FirstClash store seeds before id := by
  -- from the end: the last seed clashes, unless one before it does
  induction seeds using List.reverseRecOn with
  | nil => exact absurd ⟨List.nodup_nil, List.forall_mem_nil _⟩ h
  | append_singleton seeds last ih =>
    by_cases hfits : Fits store seeds
    · cases hid : last.id with
      | none =>
        have hnamed : namedIds (seeds ++ [last]) = namedIds seeds := by simp [namedIds, hid]
        rw [Fits, hnamed] at h
        exact absurd hfits h
      | some id =>
        refine ⟨seeds, id, ⟨last, [], rfl, hid⟩, ?_, hfits⟩
        by_contra hfree
        obtain ⟨hstored, hnew⟩ := not_or.1 hfree
        have hnamed : namedIds (seeds ++ [last]) = namedIds seeds ++ [id] := by
          simp [namedIds, hid]
        have hnone : store.record? id = none := by simpa using hstored
        rw [Fits, hnamed] at h
        refine h ⟨List.nodup_append.2 ⟨hfits.1, List.nodup_singleton _, ?_⟩, ?_⟩
        · rintro a ha b hb rfl
          exact hnew (List.mem_singleton.1 hb ▸ ha)
        · intro a ha
          rcases List.mem_append.1 ha with ha | ha
          · exact hfits.2 a ha
          · exact List.mem_singleton.1 ha ▸ hnone
    · obtain ⟨before, id, ⟨s, rest, rfl, hid⟩, htaken, hfirst⟩ := ih hfits
      exact ⟨before, id, ⟨s, rest ++ [last], by simp, hid⟩, htaken, hfirst⟩

/-! ## All seeds, or those before the first clash -/

/-- The outcome of creating the integrations of seeds. -/
structure Planted (w : World) (seeds : List Seed) (r : Except AppError Nat × World) : Prop where
  ok_iff : r.1 = .ok seeds.length ↔ Fits w.site.store seeds
  all : Fits w.site.store seeds →
    w.site.store.Gains r.2.site.store (integrations w.site seeds)
  clash : ¬ Fits w.site.store seeds → ∃ before id, FirstClash w.site.store seeds before id ∧
    r.1 = .error (.seed (.alreadyExists id)) ∧
    w.site.store.Gains r.2.site.store (integrations w.site before)
  /-- What was in the store is still there as it was. -/
  kept : ∀ id i, w.site.store.record? id = some i → r.2.site.store.record? id = some i
  /-- Apart from the store, only the number of ids made up has changed. -/
  frame : r.2 =
    { w with site := { w.site with store := r.2.site.store, issued := r.2.site.issued } }

/-- All seeds are created if the ids that they name are free; otherwise exactly those before the
first clash, and that clash is what is reported. -/
theorem planted_seed {w : World} (hfaults : w.site.store.faults .create = 0)
    (hfresh : FreshIds w.site seeds) : Planted w seeds (seed w seeds) := by
  by_cases hfits : Fits w.site.store seeds
  · obtain ⟨store, hgains, hplant⟩ :=
      plant_append hfaults ((admits_integrations_iff hfresh).2 hfits) []
    rw [List.append_nil, plant] at hplant
    have hseed : seed w seeds = (.ok seeds.length,
        { w with site := { w.site with store, issued := w.site.issued + unnamed seeds } }) := by
      rw [seed, hplant]
    rw [hseed]
    exact ⟨iff_of_true rfl hfits, fun _ => hgains, fun h => absurd hfits h,
      fun _ _ hi => hgains.kept hi, rfl⟩
  · obtain ⟨before, id, hclash⟩ := exists_firstClash hfits
    obtain ⟨s, rest, rfl, hid⟩ := hclash.place
    obtain ⟨store, hgains, hplant⟩ := plant_append hfaults
      ((admits_integrations_iff hfresh.of_append).2 hclash.first) (s :: rest)
    -- when its turn comes the id is taken, by a record from before or by one of the seeds
    have htaken : (store.record? id).isSome = true := by
      rcases hclash.taken with htaken | hnamed
      · obtain ⟨i, hi⟩ := Option.isSome_iff_exists.1 htaken
        rw [hgains.kept hi]
        rfl
      · obtain ⟨i, hi, heq⟩ := mem_ids_integrations w.site hnamed
        rw [(hgains.record?_iff id i).2 (Or.inr ⟨hi, heq⟩)]
        rfl
    have hend := @plant_of_taken { w.site with store, issued := w.site.issued + unnamed before }
      s id (hgains.faults ▸ hfaults) hid htaken rest
    have hseed : seed w (before ++ s :: rest) = (.error (.seed (.alreadyExists id)),
        { w with site := { w.site with store, issued := w.site.issued + unnamed before } }) := by
      rw [seed, hplant, hend]
    rw [hseed]
    exact ⟨iff_of_false (fun h => by cases h) hfits, fun h => absurd h hfits,
      fun _ => ⟨before, id, hclash, rfl, hgains⟩, fun _ _ hi => hgains.kept hi, rfl⟩

/-- A record that is in the store before. -/
def stock : Integration where
  id := "stock"
  name := "Stock"
  createdAt := ((Date.ofNumbers? 2024 1 6).bind fun date => Timestamp.ofNumbers? date 12 0 0 0).get
    (by decide)

/-- A world whose store holds that record; made-up ids count up. -/
def stockedWorld : World where
  site :=
    { store := { records := Dict.empty.insert "stock" stock }
      clock := stock.createdAt
      idAt := fun k => "made-up-" ++ String.ofList (List.replicate k '1') }

/-- Of these seeds the third names an id that the first one names. -/
def repeatedOrders : List Seed :=
  [{ id := some "orders", name := "Orders" }, { name := "Billing" },
    { id := some "orders", name := "Orders again" }, { id := some "stock", name := "Stock" }]

/-- The third seed is refused; the first two are created, one of them under a made-up id. -/
theorem repeatedOrders_refused : stockedWorld.site.store.faults .create = 0 ∧
    FreshIds stockedWorld.site repeatedOrders ∧
    Planted stockedWorld repeatedOrders (seed stockedWorld repeatedOrders) ∧
    (seed stockedWorld repeatedOrders).1 = .error (.seed (.alreadyExists "orders")) := by
  have hfresh : FreshIds stockedWorld.site repeatedOrders := ⟨by decide, by decide, by decide⟩
  exact ⟨rfl, hfresh, planted_seed rfl hfresh, by decide⟩

end Application

end Convergence
