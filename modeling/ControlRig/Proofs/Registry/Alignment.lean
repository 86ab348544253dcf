import ControlRig.Proofs.Registry.Reachable
import ControlRig.Proofs.Registry.Strictness

/-!
# Bringing resources in line

A start of controllers visits the resources of a list, as often as the list names them, and leaves
each of them in line with the configuration: **the declared controllers that ran keep their places,
and behind them run those that could be started, in the order of their declaration** (`aligned`).
A resource that is in line stays as it is when it is visited again (`startOn_aligned`), so the list
may name it twice, and a whole start that is made again changes nothing (`startAll_again`).

A start that fails does so at one resource (`startAll_gives_up`). Those before it are in line, and
of the rest it has changed nothing but the resource itself.
-/

namespace ControlRig

theorem Configuration.declared_nodup (c : Configuration) (resource : String) :
    (c.declared resource).Nodup := by
  unfold declared controllers
  cases hfind : c.components.find? resource with
  | none => exact List.nodup_nil
  | some controllers => exact (c.wellFormed.2 _ (SortedMap.find?_eq_some_iff.1 hfind)).2.2

namespace SimRegistry

variable {faults : Faults} {configuration : Configuration} {strictness : Strictness}

/-! ## One resource -/

/-- What runs on a resource that is in line, given what ran there before. -/
def aligned (faults : Faults) (configuration : Configuration) (resource : String)
    (running : List String) : List String :=
  running.filter (· ∈ configuration.declared resource) ++
    (configuration.declared resource).filter fun id =>
      id ∉ running ∧ controllerName resource id ∉ faults.controllers

/-- The controllers that are declared for a resource and do not run. -/
def missing (configuration : Configuration) (resource : String) (running : List String) :
    List String :=
  (configuration.declared resource).filter (· ∉ running)

section

variable {fails : String → Bool}

theorem startDeclared_running {declared : List Controller} {running : List String}
    (nodup : (declared.map (·.id)).Nodup)
    (h : (startDeclared fails strictness declared running).failed = none) :
    (startDeclared fails strictness declared running).running =
      running ++ (declared.map (·.id)).filter fun id => id ∉ running ∧ fails id = false := by
  induction declared generalizing running with
  | nil => simp [startDeclared]
  | cons c rest ih =>
    rw [List.map_cons] at nodup ⊢
    obtain ⟨hc, hrest⟩ := List.nodup_cons.1 nodup
    unfold startDeclared at h ⊢
    by_cases hrun : c.id ∈ running
    · simp only [List.contains_iff_mem.2 hrun, if_true] at h ⊢
      rw [ih hrest h, List.filter_cons_of_neg (by simp [hrun])]
    · have hcon : running.contains c.id = false := by simpa using hrun
      cases hf : fails c.id with
      | true =>
        simp only [hcon, hf, if_true, Bool.false_eq_true, if_false] at h ⊢
        cases strictness with
        | strict => simp at h
        | bestEffort => rw [ih hrest h, List.filter_cons_of_neg (by simp [hf])]
      | false =>
        simp only [hcon, hf, Bool.false_eq_true, if_false] at h ⊢
        rw [ih hrest h, List.filter_cons_of_pos (by simp [hrun, hf]), List.append_assoc,
          List.singleton_append]
        -- the one just started does not come again, so the rest is filtered as before
        congr 2
        apply List.filter_congr
        intro id hid
        have hne : id ≠ c.id := fun heq => hc (heq ▸ hid)
        simp [hne]

/-- A start gives up only if it is strict, at the first declared controller that neither runs nor
can be started. -/
theorem startDeclared_gives_up {declared : List Controller} {running : List String} {id : String}
    (nodup : (declared.map (·.id)).Nodup)
    (h : (startDeclared fails strictness declared running).failed = some id) :
    strictness = .strict ∧ ∃ before after, declared.map (·.id) = before ++ id :: after ∧
      id ∉ running ∧ fails id = true ∧
      (∀ earlier ∈ before, earlier ∈ running ∨ fails earlier = false) ∧
      (startDeclared fails strictness declared running).running =
        running ++ before.filter (· ∉ running) := by
  induction declared generalizing running with
  | nil => simp [startDeclared] at h
  | cons c rest ih =>
    rw [List.map_cons] at nodup ⊢
    obtain ⟨hc, hrest⟩ := List.nodup_cons.1 nodup
    unfold startDeclared at h ⊢
    by_cases hrun : c.id ∈ running
    · simp only [List.contains_iff_mem.2 hrun, if_true] at h ⊢
      obtain ⟨hstrict, before, after, hsplit, hid, hfails, hbefore, hrunning⟩ := ih hrest h
      refine ⟨hstrict, c.id :: before, after, by rw [hsplit, List.cons_append], hid, hfails, ?_, ?_⟩
      · exact List.forall_mem_cons.2 ⟨.inl hrun, hbefore⟩
      · rw [hrunning, List.filter_cons_of_neg (by simp [hrun])]
    · have hcon : running.contains c.id = false := by simpa using hrun
      cases hf : fails c.id with
      | true =>
        simp only [hcon, hf, if_true, Bool.false_eq_true, if_false] at h ⊢
        cases strictness with
        | strict =>
          cases h
          exact ⟨rfl, [], rest.map (·.id), rfl, hrun, hf, List.forall_mem_nil _,
            (List.append_nil _).symm⟩
        | bestEffort =>
          rw [startDeclared_bestEffort] at h
          cases h
      | false =>
        simp only [hcon, hf, Bool.false_eq_true, if_false] at h ⊢
        obtain ⟨hstrict, before, after, hsplit, hid, hfails, hbefore, hrunning⟩ := ih hrest h
        have hne : ∀ earlier ∈ before, earlier ≠ c.id := by
          intro earlier hearlier heq
          apply hc
          rw [hsplit, ← heq]
          exact List.mem_append_left _ hearlier
        refine ⟨hstrict, c.id :: before, after, by rw [hsplit, List.cons_append], ?_, hfails, ?_,
          ?_⟩
        · intro hin
          exact hid (List.mem_append_left _ hin)
        · refine List.forall_mem_cons.2 ⟨.inr hf, fun earlier hearlier => ?_⟩
          rcases hbefore earlier hearlier with hin | hwilling
          · rcases List.mem_append.1 hin with hin | heq
            · exact .inl hin
            · exact absurd (List.mem_singleton.1 heq) (hne earlier hearlier)
          · exact .inr hwilling
        · rw [hrunning, List.filter_cons_of_pos (by simp [hrun]), List.append_assoc,
            List.singleton_append]
          congr 2
          apply List.filter_congr
          intro earlier hearlier
          simp [hne earlier hearlier]

/-- Where every declared controller runs or is made to fail, there is nothing left to be started. -/
theorem startDeclared_settled {declared : List Controller} {running : List String}
    (settled : ∀ c ∈ declared, c.id ∈ running ∨ (fails c.id = true ∧ strictness = .bestEffort)) :
    startDeclared fails strictness declared running =
      ⟨running, (declared.map (·.id)).filter (· ∉ running), none⟩ := by
  induction declared with
  | nil => rfl
  | cons c rest ih =>
    have hrest := ih fun other ho => settled other (List.mem_cons_of_mem _ ho)
    unfold startDeclared
    rw [List.map_cons]
    by_cases hrun : c.id ∈ running
    · rw [if_pos (List.contains_iff_mem.2 hrun), List.filter_cons_of_neg (by simp [hrun])]
      exact hrest
    · obtain ⟨hfails, rfl⟩ := (settled c List.mem_cons_self).resolve_left hrun
      rw [if_neg fun hc => hrun (List.contains_iff_mem.1 hc), if_pos hfails,
        List.filter_cons_of_pos (by simp [hrun])]
      dsimp only
      rw [hrest]

end

theorem mem_aligned {resource id : String} {running : List String} :
    id ∈ aligned faults configuration resource running ↔
      id ∈ configuration.declared resource ∧
        (id ∈ running ∨ controllerName resource id ∉ faults.controllers) := by
  simp only [aligned, List.mem_append, List.mem_filter, decide_eq_true_eq]
  by_cases hrun : id ∈ running <;> simp [hrun]

theorem aligned_nodup {resource : String} {running : List String} (h : running.Nodup) :
    (aligned faults configuration resource running).Nodup := by
  apply List.nodup_append.2
  refine ⟨h.filter _, (configuration.declared_nodup resource).filter _, ?_⟩
  rintro a ha b hb rfl
  simp only [List.mem_filter, decide_eq_true_eq] at ha hb
  exact hb.2.1 ha.1

/-- A start goes on from the declared controllers among those that run. -/
theorem startOn_filter (faults : Faults) (configuration : Configuration) (strictness : Strictness)
    (resource : String) (running : List String) :
    startOn faults configuration strictness resource running =
      startDeclared (fun id => decide (controllerName resource id ∈ faults.controllers)) strictness
        (configuration.controllers resource)
        (running.filter (· ∈ configuration.declared resource)) := by
  unfold startOn
  dsimp only
  congr 1
  apply List.filter_congr
  intro id _
  rw [Bool.eq_iff_iff]
  simp [Configuration.declared]

/-- **What a start that did not give up comes to on a resource.** -/
theorem startOn_eq {resource : String} {running : List String}
    (h : (startOn faults configuration strictness resource running).failed = none) :
    startOn faults configuration strictness resource running =
      ⟨aligned faults configuration resource running,
        missing configuration resource (aligned faults configuration resource running), none⟩ := by
  have hskipped := startOn_skipped h
  have hrunning : (startOn faults configuration strictness resource running).running =
      aligned faults configuration resource running := by
    rw [startOn_filter] at h ⊢
    rw [startDeclared_running (configuration.declared_nodup resource) h]
    unfold aligned
    congr 1
    apply List.filter_congr
    intro id hid
    have hdeclared : id ∈ configuration.declared resource := hid
    simp [hdeclared]
  rw [hrunning] at hskipped
  generalize startOn faults configuration strictness resource running = s at h hskipped hrunning
  obtain ⟨running', skipped, failed⟩ := s
  dsimp only at h hskipped hrunning
  rw [h, hskipped, hrunning]
  rfl

theorem startOn_gives_up {resource id : String} {running : List String}
    (h : (startOn faults configuration strictness resource running).failed = some id) :
    strictness = .strict ∧ ∃ earlier later,
      configuration.declared resource = earlier ++ id :: later ∧
      id ∉ running ∧ controllerName resource id ∈ faults.controllers ∧
      (∀ other ∈ earlier, other ∈ running ∨ controllerName resource other ∉ faults.controllers) ∧
      (startOn faults configuration strictness resource running).running =
        running.filter (· ∈ configuration.declared resource) ++ earlier.filter (· ∉ running) := by
  rw [startOn_filter] at h ⊢
  obtain ⟨hstrict, earlier, later, hsplit, hnew, hfails, hearlier, hrunning⟩ :=
    startDeclared_gives_up (configuration.declared_nodup resource) h
  have hdeclared : configuration.declared resource = earlier ++ id :: later := hsplit
  have hid : id ∈ configuration.declared resource := by simp [hdeclared]
  refine ⟨hstrict, earlier, later, hdeclared, ?_, of_decide_eq_true hfails, ?_, ?_⟩
  · intro hrun
    exact hnew (List.mem_filter.2 ⟨hrun, decide_eq_true hid⟩)
  · intro other hother
    rcases hearlier other hother with hrun | hwilling
    · exact .inl (List.mem_filter.1 hrun).1
    · exact .inr (of_decide_eq_false hwilling)
  · rw [hrunning]
    congr 1
    apply List.filter_congr
    intro other hother
    have hin : other ∈ configuration.declared resource := by simp [hdeclared, hother]
    simp [hin]

/-- **A resource that is in line stays as it is**, whether the start is repeated or made again with
best effort. -/
theorem startOn_aligned {again : Strictness} {resource : String} {running : List String}
    (h : (startOn faults configuration strictness resource running).failed = none)
    (hagain : again = strictness ∨ again = .bestEffort) :
    startOn faults configuration again resource
        (aligned faults configuration resource running) =
      startOn faults configuration strictness resource running := by
  have hkept : (aligned faults configuration resource running).filter
      (· ∈ configuration.declared resource) = aligned faults configuration resource running := by
    apply List.filter_eq_self.2
    intro id hid
    exact decide_eq_true (mem_aligned.1 hid).1
  rw [startOn_eq h, startOn_filter, hkept]
  apply startDeclared_settled
  intro c hc
  have hdeclared : c.id ∈ configuration.declared resource := List.mem_map_of_mem hc
  by_cases hin : c.id ∈ aligned faults configuration resource running
  · exact .inl hin
  · -- it was skipped, which only a best-effort start does
    have hskipped : c.id ∈ missing configuration resource
        (aligned faults configuration resource running) :=
      List.mem_filter.2 ⟨hdeclared, decide_eq_true hin⟩
    have hfails : controllerName resource c.id ∈ faults.controllers := by
      apply Decidable.byContradiction
      intro hwilling
      exact hin (mem_aligned.2 ⟨hdeclared, .inr hwilling⟩)
    refine .inr ⟨decide_eq_true hfails, ?_⟩
    rcases hagain with rfl | rfl
    · cases again with
      | bestEffort => rfl
      | strict =>
        have hnone : (startOn faults configuration .strict resource running).skipped = [] :=
          startDeclared_strict _ _
        rw [startOn_eq h] at hnone
        dsimp only at hnone
        rw [hnone] at hskipped
        cases hskipped
    · rfl

/-! ## Several resources -/

/-- **A start that goes through has found every resource of its list and has brought it in line**,
however often it came by. -/
theorem startAll_aligned {names : List String} {held : SortedMap Held}
    (h : (startAll faults configuration strictness names held).error = none) {resource : String}
    (mem : resource ∈ names) :
    ∃ x, held.find? resource = some x ∧
      (startOn faults configuration strictness resource x.controllers).failed = none ∧
      (startAll faults configuration strictness names held).held.find? resource =
        some { x with controllers := aligned faults configuration resource x.controllers } := by
  induction names generalizing held with
  | nil => cases mem
  | cons n rest ih =>
    obtain ⟨x, started, hx, rfl, hfailed, heq⟩ := startAll_cons_ok h
    rw [heq] at h ⊢
    have hrunning : (startOn faults configuration strictness n x.controllers).running =
        aligned faults configuration n x.controllers := by
      rw [startOn_eq hfailed]
    dsimp only at h ⊢
    rw [hrunning] at h ⊢
    by_cases hrest : resource ∈ rest
    · obtain ⟨y, hy, hyfailed, hfind⟩ := ih h hrest
      by_cases hn : n = resource
      · -- the list comes back to this resource, and finds it in line
        subst hn
        rw [SortedMap.find?_insert_self] at hy
        cases hy
        refine ⟨x, hx, hfailed, hfind.trans ?_⟩
        have hagain := startOn_aligned hfailed (.inl rfl)
        rw [startOn_eq hyfailed, startOn_eq hfailed] at hagain
        rw [(Started.mk.inj hagain).1]
      · rw [SortedMap.find?_insert_of_ne _ hn] at hy
        exact ⟨y, hy, hyfailed, hfind⟩
    · obtain rfl := (List.mem_cons.1 mem).resolve_right hrest
      refine ⟨x, hx, hfailed, ?_⟩
      rw [startAll_find?_of_not_mem rest hrest, SortedMap.find?_insert_self]

/-- The resources of a list are in line already, as far as a start of the strictness can tell. -/
def Settled (faults : Faults) (configuration : Configuration) (strictness : Strictness)
    (names : List String) (held : SortedMap Held) : Prop :=
  ∀ resource ∈ names, ∃ x, held.find? resource = some x ∧
    startOn faults configuration strictness resource x.controllers =
      ⟨x.controllers, missing configuration resource x.controllers, none⟩

theorem startAll_settled {names : List String} {held : SortedMap Held}
    (settled : Settled faults configuration strictness names held) :
    startAll faults configuration strictness names held =
      ⟨held, names.flatMap fun resource =>
        (missing configuration resource (runningIn held resource)).map (resource, ·), none⟩ := by
  induction names with
  | nil => rfl
  | cons n rest ih =>
    obtain ⟨x, hx, hstart⟩ := settled n List.mem_cons_self
    have hrest := ih fun resource hmem => settled resource (List.mem_cons_of_mem _ hmem)
    have hrunning : runningIn held n = x.controllers := by rw [runningIn, hx]; rfl
    rw [startAll, hx]
    dsimp only
    rw [hstart]
    dsimp only
    rw [SortedMap.insert_of_find? hx, hrest, List.flatMap_cons, hrunning]

theorem settled_startAll {again : Strictness} {names : List String} {held : SortedMap Held}
    (h : (startAll faults configuration strictness names held).error = none)
    (hagain : again = strictness ∨ again = .bestEffort) :
    Settled faults configuration again names
      (startAll faults configuration strictness names held).held := by
  intro resource hmem
  obtain ⟨x, -, hfailed, hfind⟩ := startAll_aligned h hmem
  refine ⟨_, hfind, ?_⟩
  dsimp only
  rw [startOn_aligned hfailed hagain, startOn_eq hfailed]

/-- What a start that goes through has skipped: visit by visit, the declared controllers that do not
run now. -/
theorem startAll_missing {names : List String} {held : SortedMap Held}
    (h : (startAll faults configuration strictness names held).error = none) :
    (startAll faults configuration strictness names held).skipped =
      names.flatMap fun resource => (missing configuration resource
        (runningIn (startAll faults configuration strictness names held).held resource)).map
          (resource, ·) := by
  induction names generalizing held with
  | nil => rfl
  | cons n rest ih =>
    obtain ⟨x, started, hx, rfl, hfailed, heq⟩ := startAll_cons_ok h
    obtain ⟨y, hy, -, hfind⟩ := startAll_aligned h List.mem_cons_self
    cases hx.symm.trans hy
    have hnow : runningIn (startAll faults configuration strictness (n :: rest) held).held n =
        aligned faults configuration n x.controllers := by
      rw [runningIn, hfind]
      rfl
    rw [List.flatMap_cons, hnow]
    rw [heq] at h ⊢
    dsimp only at h ⊢
    rw [ih h, startOn_eq hfailed]

/-- **A start that has gone through, made again with best effort, changes nothing and skips the
same.** -/
theorem startAll_again {names : List String} {held : SortedMap Held}
    (h : (startAll faults configuration strictness names held).error = none) :
    startAll faults configuration .bestEffort names
        (startAll faults configuration strictness names held).held =
      startAll faults configuration strictness names held := by
  have hskipped := startAll_missing h
  rw [startAll_settled (settled_startAll h (.inr rfl)), ← hskipped]
  generalize startAll faults configuration strictness names held = s at h
  obtain ⟨held', skipped, error⟩ := s
  cases h
  rfl

/-- **A start that fails does so at one resource**: everything before it has gone through, and it is
not loaded or one of its controllers cannot be started. -/
theorem startAll_gives_up {names : List String} {held : SortedMap Held} {e : RegistryError}
    (h : (startAll faults configuration strictness names held).error = some e) :
    ∃ before resource rest, names = before ++ resource :: rest ∧
      (startAll faults configuration strictness before held).error = none ∧
      let after := (startAll faults configuration strictness before held).held
      (e = .notLoaded resource ∧ after.find? resource = none ∧
          (startAll faults configuration strictness names held).held = after) ∨
        ∃ x id, after.find? resource = some x ∧ e = refusal resource id ∧
          (startOn faults configuration strictness resource x.controllers).failed = some id ∧
          (startAll faults configuration strictness names held).held =
            after.insert resource { x with controllers :=
              (startOn faults configuration strictness resource x.controllers).running } := by
  induction names generalizing held with
  | nil => cases h
  | cons n rest ih =>
    cases hx : held.find? n with
    | none =>
      unfold startAll at h ⊢
      rw [hx] at h ⊢
      cases h
      exact ⟨[], n, rest, rfl, rfl, .inl ⟨rfl, hx, rfl⟩⟩
    | some x =>
      cases hfailed : (startOn faults configuration strictness n x.controllers).failed with
      | some id =>
        unfold startAll at h ⊢
        rw [hx] at h ⊢
        dsimp only at h ⊢
        rw [hfailed] at h ⊢
        cases h
        exact ⟨[], n, rest, rfl, rfl, .inr ⟨x, id, hx, rfl, hfailed, rfl⟩⟩
      | none =>
        have hcons (others : List String) :
            (startAll faults configuration strictness (n :: others) held).error =
                (startAll faults configuration strictness others (held.insert n { x with
                  controllers :=
                    (startOn faults configuration strictness n x.controllers).running })).error ∧
              (startAll faults configuration strictness (n :: others) held).held =
                (startAll faults configuration strictness others (held.insert n { x with
                  controllers :=
                    (startOn faults configuration strictness n x.controllers).running })).held := by
          rw [startAll, hx]
          dsimp only
          rw [hfailed]
          exact ⟨rfl, rfl⟩
        rw [(hcons rest).1] at h
        obtain ⟨before, resource, others, rfl, hbefore, hstop⟩ := ih h
        refine ⟨n :: before, resource, others, rfl, (hcons before).1.trans hbefore, ?_⟩
        rw [(hcons before).2, (hcons _).2]
        exact hstop

/-- The walk has not been at the resource before, because it would have come through there again. -/
theorem startAll_gives_up_first {before : List String} {held : SortedMap Held} {resource : String}
    (h : (startAll faults configuration strictness before held).error = none)
    (stops : let after := (startAll faults configuration strictness before held).held
      after.find? resource = none ∨ ∃ x id, after.find? resource = some x ∧
        (startOn faults configuration strictness resource x.controllers).failed = some id) :
    resource ∉ before := by
  intro hmem
  obtain ⟨y, -, hfailed, hfind⟩ := startAll_aligned h hmem
  rcases stops with hnone | ⟨x, id, hx, hstop⟩
  · rw [hfind] at hnone
    cases hnone
  · rw [hfind] at hx
    cases hx
    rw [startOn_aligned hfailed (.inl rfl), hfailed] at hstop
    cases hstop

/-! ## The call -/

/-- A start has come through with a resource. What runs there is what is in line, nothing twice, and
of a strict start nothing is missing. Nothing else of the resource has changed. -/
structure InLine (r after : SimRegistry) (configuration : Configuration) (strictness : Strictness)
    (resource : String) : Prop where
  loaded : resource ∈ r.loaded
  running : after.running resource =
    aligned r.faults configuration resource (r.running resource)
  nodup : (after.running resource).Nodup
  complete : strictness = .strict → missing configuration resource (after.running resource) = []
  held : after.held.find? resource =
    (r.held.find? resource).map fun x => { x with controllers := after.running resource }

/-- A start has failed at a resource. It has come through with those before, and has touched no
other. The resource is not loaded, or the start was strict and one of its controllers could not be
started, the first of its kind; then those declared before it run, behind those that ran. -/
structure GivesUpAt (r after : SimRegistry) (configuration : Configuration)
    (strictness : Strictness) (resources before : List String) (resource : String)
    (e : RegistryError) : Prop where
  listed : ∃ rest, resources = before ++ resource :: rest
  first : resource ∉ before
  passed : ∀ other ∈ before, InLine r after configuration strictness other
  others : ∀ other ∉ before, other ≠ resource → after.held.find? other = r.held.find? other
  reason : (e = .notLoaded resource ∧ resource ∉ r.loaded) ∨
    ∃ id earlier later, e = refusal resource id ∧ strictness = .strict ∧ resource ∈ r.loaded ∧
      configuration.declared resource = earlier ++ id :: later ∧
      id ∉ r.running resource ∧ controllerName resource id ∈ r.faults.controllers ∧
      (∀ other ∈ earlier,
        other ∈ r.running resource ∨ controllerName resource other ∉ r.faults.controllers) ∧
      after.running resource =
        (r.running resource).filter (· ∈ configuration.declared resource) ++
          earlier.filter (· ∉ r.running resource)

variable {r : SimRegistry} {now : Instant} {limit : Duration}

/-- What a call that is in time leaves of the walk. -/
theorem inLine_of_startAll {after : SimRegistry} {names : List String}
    (once : RunsOnce r.held)
    (h : (startAll r.faults configuration strictness names r.held).error = none)
    {resource : String} (mem : resource ∈ names)
    (same : after.held.find? resource =
      (startAll r.faults configuration strictness names r.held).held.find? resource) :
    InLine r after configuration strictness resource := by
  obtain ⟨x, hx, hfailed, hfind⟩ := startAll_aligned h mem
  rw [hfind] at same
  have hbefore : r.running resource = x.controllers := by rw [running, hx]; rfl
  have hafter : after.running resource =
      aligned r.faults configuration resource x.controllers := by rw [running, same]; rfl
  have honce : x.controllers.Nodup := by
    rw [← hbefore]
    exact once resource
  refine ⟨mem_loaded_iff.2 (by rw [hx]; rfl), by rw [hafter, hbefore], ?_, ?_, ?_⟩
  · rw [hafter]
    exact aligned_nodup honce
  · rintro rfl
    have hskipped : (startOn r.faults configuration .strict resource x.controllers).skipped = [] :=
      startDeclared_strict _ _
    rw [startOn_eq hfailed] at hskipped
    rw [hafter]
    exact hskipped
  · rw [same, hx, hafter]
    rfl

/-- A failed walk, as it is seen from outside. -/
theorem givesUpAt_of_startAll {after : SimRegistry} {names : List String} {e : RegistryError}
    (once : RunsOnce r.held)
    (h : (startAll r.faults configuration strictness names r.held).error = some e)
    (same : after.held = (startAll r.faults configuration strictness names r.held).held) :
    ∃ before resource, GivesUpAt r after configuration strictness names before resource e := by
  obtain ⟨before, resource, rest, hsplit, hbefore, hstop⟩ := startAll_gives_up h
  rcases hstop with ⟨he, hnone, hheld⟩ | ⟨x, id, hx, he, hfailed, hheld⟩
  · have hfirst : resource ∉ before := startAll_gives_up_first hbefore (.inl hnone)
    refine ⟨before, resource, ⟨rest, hsplit⟩, hfirst, ?_, ?_, .inl ⟨he, ?_⟩⟩
    · intro other hmem
      exact inLine_of_startAll once hbefore hmem (by rw [same, hheld])
    · intro other hother _
      rw [same, hheld, startAll_find?_of_not_mem before hother]
    · rw [not_mem_loaded_iff, ← startAll_find?_of_not_mem before hfirst]
      exact hnone
  · have hfirst : resource ∉ before :=
      startAll_gives_up_first hbefore (.inr ⟨x, id, hx, hfailed⟩)
    rw [startAll_find?_of_not_mem before hfirst] at hx
    have hold : r.running resource = x.controllers := by rw [running, hx]; rfl
    obtain ⟨hstrict, earlier, later, hdeclared, hnew, hfails, hearlier, hrunning⟩ :=
      startOn_gives_up hfailed
    refine ⟨before, resource, ⟨rest, hsplit⟩, hfirst, ?_, ?_, .inr ⟨id, earlier, later, he, hstrict,
      mem_loaded_iff.2 (by rw [hx]; rfl), hdeclared, by rwa [hold], hfails, by rwa [hold], ?_⟩⟩
    · intro other hmem
      have hne : resource ≠ other := fun heq => hfirst (heq ▸ hmem)
      apply inLine_of_startAll once hbefore hmem
      rw [same, hheld, SortedMap.find?_insert_of_ne _ hne]
    · intro other hother hne
      rw [same, hheld, SortedMap.find?_insert_of_ne _ (Ne.symm hne),
        startAll_find?_of_not_mem before hother]
    · rw [running, same, hheld, SortedMap.find?_insert_self, hold]
      exact hrunning

/-- What fails has no effect, a start of controllers apart. -/
theorem effect_error {operation : Operation} {e : RegistryError} (t : Instant)
    (h : (r.effect t operation).answer = .error e)
    (other : ∀ resources configuration strictness,
      operation ≠ .startControllers resources configuration strictness) :
    (r.effect t operation).registry.held = r.held := by
  cases operation with
  | startControllers resources configuration strictness => exact absurd rfl (other _ _ _)
  | load resource =>
    simp only [effect] at h ⊢
    split at h
    · rw [if_pos ‹_›]
    · split at h
      · rw [if_neg ‹_›, if_pos ‹_›]
      · cases h
  | listLoaded | unload resources | purge | stopControllers resources =>
    simp only [effect] at h ⊢
    split at h
    · rw [if_pos ‹_›]
    · cases h

theorem intime_of_run_ok {operation : Operation} {names : List String}
    (h : (r.run now limit operation).answer = .ok names) : ¬ limit < r.latency := by
  obtain ⟨-, hanswer, -⟩ | ⟨intime, -⟩ := run_cases r now limit operation
  · rw [hanswer] at h
    cases h
  · exact intime

/-- A start that has its effect does not run out of time. -/
theorem not_start_of_timeout {operation : Operation} {t : Instant} {name : String}
    (h : (r.effect t operation).answer = .error (.timeout name limit)) (resources : List String)
    (configuration : Configuration) (strictness : Strictness) :
    operation ≠ .startControllers resources configuration strictness := by
  rintro rfl
  simp only [effect] at h
  cases herror : (startAll r.faults configuration strictness resources r.held).error with
  | none =>
    rw [herror] at h
    cases h
  | some e =>
    rw [herror] at h
    cases h
    obtain ⟨_, _, _, _, _, ⟨he, _⟩ | ⟨_, _, _, he, _⟩⟩ := startAll_gives_up herror
    · cases he
    · cases he

/-- **What a start of controllers comes to.** If it is answered with names, each resource of the
list is in line, also one that is listed twice, the names are those of the declared controllers that
do not run, and another start with best effort is answered alike and changes nothing. If it fails it
has run out of time and changed nothing, or it has given up at one of the resources. Resources that
are not listed never change, and none is loaded or unloaded.

Of all calls it is the only one that can fail and yet change something, and each call leaves one
entry in the record. -/
theorem start_brings_in_line (reachable : r.Reachable) (now : Instant) (limit : Duration)
    (resources : List String) (configuration : Configuration) (strictness : Strictness) :
    let p := r.run now limit (.startControllers resources configuration strictness)
    (∀ skipped, p.answer = .ok skipped →
      (∀ resource ∈ resources, InLine r p.registry configuration strictness resource) ∧
      skipped = (resources.flatMap fun resource =>
        (missing configuration resource (p.registry.running resource)).map
          (controllerName resource)) ∧
      ∀ later,
        let again := p.registry.run later limit
          (.startControllers resources configuration .bestEffort)
        again.answer = .ok skipped ∧ again.registry.held = p.registry.held) ∧
    (∀ e, p.answer = .error e →
      (e = .timeout "start_controllers" limit ∧ p.registry.held = r.held) ∨
        ∃ before resource,
          GivesUpAt r p.registry configuration strictness resources before resource e) ∧
    (∀ resource ∉ resources, p.registry.held.find? resource = r.held.find? resource) ∧
    p.registry.loaded = r.loaded ∧
    ∀ operation,
      (r.run now limit operation).registry.calls = r.calls ++ [operation.call] ∧
      ∀ e, (r.run now limit operation).answer = .error e →
        (e = .timeout operation.call.name limit ∨ ∀ resources configuration strictness,
          operation ≠ .startControllers resources configuration strictness) →
        (r.run now limit operation).registry.held = r.held := by
  intro p
  have once : RunsOnce r.held := reachable.nodup
  refine ⟨?_, ?_, ?_, run_startControllers_loaded r now limit resources configuration strictness,
    fun operation => ⟨run_calls r now limit operation, fun e hanswer hkind => ?_⟩⟩
  · intro skipped hanswer
    obtain ⟨herror, hheld, hskipped⟩ := run_startControllers_ok hanswer
    refine ⟨fun resource hmem => inLine_of_startAll once herror hmem (by rw [hheld]), ?_,
      fun later => ?_⟩
    · rw [hskipped, startAll_missing herror, List.map_flatMap]
      simp only [List.map_map, running_eq]
      rw [hheld]
      rfl
    · have intime : ¬ limit < p.registry.latency := by
        rw [run_latency]
        exact intime_of_run_ok hanswer
      obtain ⟨hagain, hanswer'⟩ :=
        run_startControllers_intime later intime resources configuration .bestEffort
      rw [run_faults, hheld, startAll_again herror] at hagain hanswer'
      rw [herror, ← hskipped] at hanswer'
      exact ⟨hanswer', hagain.trans hheld.symm⟩
  · intro e hanswer
    obtain ⟨-, htimeout, hheld⟩ | ⟨intime, -⟩ :=
      run_cases r now limit (.startControllers resources configuration strictness)
    · rw [htimeout] at hanswer
      cases hanswer
      exact .inl ⟨rfl, hheld⟩
    · obtain ⟨hheld, hgiven⟩ :=
        run_startControllers_intime now intime resources configuration strictness
      rw [hanswer] at hgiven
      cases herror : (startAll r.faults configuration strictness resources r.held).error with
      | none =>
        rw [herror] at hgiven
        cases hgiven
      | some found =>
        rw [herror] at hgiven
        cases hgiven
        exact .inr (givesUpAt_of_startAll once herror hheld)
  · intro resource hmem
    obtain ⟨-, -, hheld⟩ | ⟨intime, -⟩ :=
      run_cases r now limit (.startControllers resources configuration strictness)
    · rw [hheld]
    · rw [(run_startControllers_intime now intime resources configuration strictness).1]
      exact startAll_find?_of_not_mem resources hmem
  · obtain ⟨-, -, hheld⟩ | ⟨intime, t, heffect, hheld⟩ := run_cases r now limit operation
    · exact hheld
    · rw [heffect] at hanswer
      rw [hheld]
      apply effect_error t hanswer
      rcases hkind with rfl | hother
      · exact not_start_of_timeout hanswer
      · exact hother

/-- While handling goes on, welding is started with best effort on an arm that is listed twice: the
gripper keeps running although it could not be started again, and the torch is skipped twice. A
strict start gives up at the torch, after the belt has been stopped. -/
theorem start_brings_in_line_welding :
    let p := whileHandling.run .start .zero
      (.startControllers ["arm", "arm"] .welding .bestEffort)
    let q := whileHandling.run .start .zero (.startControllers ["belt", "arm"] .welding .strict)
    p.answer = .ok ["arm/torch", "arm/torch"] ∧ p.registry.running "arm" = ["grip"] ∧
      InLine whileHandling p.registry .welding .bestEffort "arm" ∧
      (p.registry.run .start .zero
        (.startControllers ["arm", "arm"] .welding .bestEffort)).registry.held = p.registry.held ∧
      q.answer = .error (refusal "arm" "torch") ∧ q.registry.running "belt" = [] ∧
      ∃ before resource, GivesUpAt whileHandling q.registry .welding .strict ["belt", "arm"] before
        resource (refusal "arm" "torch") := by
  intro p q
  obtain ⟨hok, -⟩ := start_brings_in_line whileHandling_reachable .start .zero
    ["arm", "arm"] .welding .bestEffort
  obtain ⟨-, herror, -⟩ := start_brings_in_line whileHandling_reachable .start .zero
    ["belt", "arm"] .welding .strict
  have hp : p.answer = .ok ["arm/torch", "arm/torch"] := by rfl
  have hq : q.answer = .error (refusal "arm" "torch") := by rfl
  obtain ⟨haligned, -, hagain⟩ := hok _ hp
  refine ⟨hp, by decide +kernel, haligned "arm" List.mem_cons_self, (hagain .start).2, hq,
    by decide +kernel, ?_⟩
  rcases herror _ hq with ⟨htimeout, -⟩ | hgives
  · cases htimeout
  · exact hgives

end SimRegistry

end ControlRig
