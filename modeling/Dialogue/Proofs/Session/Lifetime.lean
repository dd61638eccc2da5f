import Mathlib.Data.List.Nodup
import Dialogue.Proofs.Session.Run

namespace Dialogue

def Event.serial : Event → Nat
  | .load serial _ | .call serial _ | .release serial | .lose serial => serial

def Event.released? : Event → Option Nat
  | .release serial => some serial
  | _ => none

def Event.ends? : Event → Option Nat
  | .release serial | .lose serial => some serial
  | _ => none

theorem Event.serial_of_ends {event : Event} {serial : Nat} (h : event.ends? = some serial) :
    event.serial = serial := by
  cases event <;> cases h <;> rfl

/-- A model was given by its loader, and is neither released nor lost yet. -/
def Held (serial : Nat) (events : List Event) : Prop :=
  .load serial true ∈ events ∧ serial ∉ events.filterMap Event.ends?

/-- Events that lead from one model that is alive, or none, to another, with the serial number of
the next loader before and after. -/
inductive Lives : Option Nat → Nat → List Event → Option Nat → Nat → Prop
  | nil (alive : Option Nat) (loads : Nat) : Lives alive loads [] alive loads
  | failed {loads loads' : Nat} {alive' : Option Nat} {rest : List Event}
      (later : Lives none (loads + 1) rest alive' loads') :
      Lives none loads (.load loads false :: rest) alive' loads'
  | loaded {loads loads' : Nat} {alive' : Option Nat} {rest : List Event}
      (later : Lives (some loads) (loads + 1) rest alive' loads') :
      Lives none loads (.load loads true :: rest) alive' loads'
  | call {serial loads loads' : Nat} {alive' : Option Nat} {rest : List Event} (call : Call)
      (later : Lives (some serial) loads rest alive' loads') :
      Lives (some serial) loads (.call serial call :: rest) alive' loads'
  | ended {serial loads loads' : Nat} {alive' : Option Nat} {event : Event} {rest : List Event}
      (end' : event.ends? = some serial) (later : Lives none loads rest alive' loads') :
      Lives (some serial) loads (event :: rest) alive' loads'

/-- The model that is alive was given by a loader that ran already. -/
def Older (alive : Option Nat) (loads : Nat) : Prop :=
  ∀ serial, alive = some serial → serial < loads

theorem older_none (loads : Nat) : Older none loads :=
  nofun

theorem older_loaded (loads : Nat) : Older (some loads) (loads + 1) := by
  intro serial hserial
  cases hserial
  exact Nat.lt_succ_self loads

namespace Lives

variable {alive alive' : Option Nat} {loads loads' : Nat} {events : List Event}

theorem append {middle : Option Nat} {loads₁ : Nat} {more : List Event}
    (h : Lives alive loads events middle loads₁) (h' : Lives middle loads₁ more alive' loads') :
    Lives alive loads (events ++ more) alive' loads' := by
  induction h with
  | nil => exact h'
  | failed _ ih => exact .failed (ih h')
  | loaded _ ih => exact .loaded (ih h')
  | call call _ ih => exact .call call (ih h')
  | ended end' _ ih => exact .ended end' (ih h')

theorem exists_middle {more : List Event}
    (h : Lives alive loads (events ++ more) alive' loads') :
    ∃ middle loads₁, Lives alive loads events middle loads₁ ∧
      Lives middle loads₁ more alive' loads' := by
  induction events generalizing alive loads with
  | nil => exact ⟨alive, loads, .nil alive loads, h⟩
  | cons event events ih =>
      rw [List.cons_append] at h
      cases h with
      | failed later =>
          obtain ⟨middle, loads₁, hfirst, hmore⟩ := ih later
          exact ⟨middle, loads₁, .failed hfirst, hmore⟩
      | loaded later =>
          obtain ⟨middle, loads₁, hfirst, hmore⟩ := ih later
          exact ⟨middle, loads₁, .loaded hfirst, hmore⟩
      | call call later =>
          obtain ⟨middle, loads₁, hfirst, hmore⟩ := ih later
          exact ⟨middle, loads₁, .call call hfirst, hmore⟩
      | ended end' later =>
          obtain ⟨middle, loads₁, hfirst, hmore⟩ := ih later
          exact ⟨middle, loads₁, .ended end' hfirst, hmore⟩

theorem serial_of_mem (h : Lives alive loads events alive' loads') {event : Event}
    (hevent : event ∈ events) : alive = some event.serial ∨ loads ≤ event.serial := by
  induction h with
  | nil => cases hevent
  | failed _ ih =>
      rcases List.mem_cons.mp hevent with rfl | hevent
      · exact .inr (Nat.le_refl _)
      · rcases ih hevent with hserial | hserial
        · cases hserial
        · exact .inr (Nat.le_of_succ_le hserial)
  | loaded _ ih =>
      rcases List.mem_cons.mp hevent with rfl | hevent
      · exact .inr (Nat.le_refl _)
      · rcases ih hevent with hserial | hserial
        · cases hserial
          exact .inr (Nat.le_refl _)
        · exact .inr (Nat.le_of_succ_le hserial)
  | call call _ ih =>
      rcases List.mem_cons.mp hevent with rfl | hevent
      · exact .inl rfl
      · exact ih hevent
  | ended end' _ ih =>
      rcases List.mem_cons.mp hevent with rfl | hevent
      · exact .inl (congrArg some (Event.serial_of_ends end').symm)
      · rcases ih hevent with hserial | hserial
        · cases hserial
        · exact .inr hserial

theorem serial_ne (h : Lives none loads events alive' loads') {serial : Nat}
    (hserial : serial < loads) {event : Event} (hevent : event ∈ events) :
    event.serial ≠ serial := by
  rcases h.serial_of_mem hevent with halive | hloads
  · cases halive
  · omega

theorem older (h : Lives alive loads events alive' loads') (holder : Older alive loads) :
    loads ≤ loads' ∧ Older alive' loads' ∧ ∀ event ∈ events, event.serial < loads' := by
  induction h with
  | nil => exact ⟨Nat.le_refl _, holder, nofun⟩
  | failed _ ih =>
      obtain ⟨hloads, holder', hevents⟩ := ih (older_none _)
      exact ⟨Nat.le_of_succ_le hloads, holder', List.forall_mem_cons.mpr ⟨hloads, hevents⟩⟩
  | loaded _ ih =>
      obtain ⟨hloads, holder', hevents⟩ := ih (older_loaded _)
      exact ⟨Nat.le_of_succ_le hloads, holder', List.forall_mem_cons.mpr ⟨hloads, hevents⟩⟩
  | call call _ ih =>
      obtain ⟨hloads, holder', hevents⟩ := ih holder
      have hserial := Nat.lt_of_lt_of_le (holder _ rfl) hloads
      exact ⟨hloads, holder', List.forall_mem_cons.mpr ⟨hserial, hevents⟩⟩
  | ended end' _ ih =>
      obtain ⟨hloads, holder', hevents⟩ := ih (older_none _)
      have hserial := Nat.lt_of_lt_of_le (holder _ rfl) hloads
      rw [← Event.serial_of_ends end'] at hserial
      exact ⟨hloads, holder', List.forall_mem_cons.mpr ⟨hserial, hevents⟩⟩

/-- The model that is alive in the end is the one whose end is not among the events. -/
theorem alive_iff (h : Lives alive loads events alive' loads') (holder : Older alive loads)
    (serial : Nat) :
    alive' = some serial ↔
      (alive = some serial ∨ .load serial true ∈ events) ∧
        serial ∉ events.filterMap Event.ends? := by
  induction h with
  | nil => simp
  | failed _ ih => simpa [Event.ends?] using ih (older_none _)
  | loaded _ ih =>
      rw [ih (older_loaded _)]
      simp [Event.ends?, eq_comm]
  | call call _ ih => simpa [Event.ends?] using ih holder
  | @ended old _ _ _ event rest end' later ih =>
      have hload : .load serial true ≠ event := by
        rintro rfl
        cases end'
      rw [ih (older_none _), List.filterMap_cons_some end']
      by_cases hserial : serial = old
      · -- a number is never used again, so a model that had its end is not loaded later
        subst hserial
        have hloaded : .load serial true ∉ rest := fun hmem =>
          later.serial_ne (holder _ rfl) hmem rfl
        simp [hloaded]
      · simp [hserial, Ne.symm hserial, hload]

theorem held_iff (h : Lives none loads events alive' loads') (serial : Nat) :
    Held serial events ↔ alive' = some serial := by
  rw [h.alive_iff (older_none _), Held]
  simp

theorem held_unique {earlier : List Event} (h : Lives none loads events alive' loads')
    (hearlier : earlier <+: events) {j k : Nat} (hj : Held j earlier)
    (hk : Held k earlier) : j = k := by
  obtain ⟨later, rfl⟩ := hearlier
  obtain ⟨middle, loads₁, hlives, -⟩ := h.exists_middle
  rw [hlives.held_iff] at hj hk
  exact Option.some.inj (hj.symm.trans hk)

theorem nodup_released (h : Lives alive loads events alive' loads')
    (holder : Older alive loads) : (events.filterMap Event.released?).Nodup := by
  induction h with
  | nil => exact List.nodup_nil
  | failed _ ih => exact ih (older_none _)
  | loaded _ ih => exact ih (older_loaded _)
  | call call _ ih => exact ih holder
  | @ended _ _ _ _ ending _ end' later ih =>
      cases ending with
      | load | call => cases end'
      | lose => exact ih (older_none _)
      | release =>
          cases end'
          refine List.nodup_cons.mpr ⟨fun hmem => ?_, ih (older_none _)⟩
          obtain ⟨event, hevent, hreleased⟩ := List.mem_filterMap.mp hmem
          cases event with
          | release serial =>
              cases hreleased
              exact later.serial_ne (holder _ rfl) hevent rfl
          | load | call | lose => cases hreleased

theorem end_unique (h : Lives none loads events alive' loads') {serial : Nat} {event event' : Event}
    (hevent : event ∈ events) (hevent' : event' ∈ events) (hend : event.ends? = some serial)
    (hend' : event'.ends? = some serial) : event' = event := by
  obtain ⟨earlier, later, rfl⟩ := List.append_of_mem hevent
  obtain ⟨middle, loads₁, hearlier, hlater⟩ := h.exists_middle
  obtain ⟨-, holder, -⟩ := hearlier.older (older_none _)
  cases hlater with
  | failed | loaded | call => cases hend
  | ended hmiddle hrest =>
      cases hmiddle.symm.trans hend
      rcases List.mem_append.mp hevent' with hbefore | hafter
      · have hheld := (hearlier.held_iff serial).mpr rfl
        exact absurd (List.mem_filterMap.mpr ⟨_, hbefore, hend'⟩) hheld.2
      · rcases List.mem_cons.mp hafter with heq | hafter
        · exact heq
        · exact absurd (Event.serial_of_ends hend') (hrest.serial_ne (holder _ rfl) hafter)

/-- If no model is left, each that was loaded was released once, or it was lost and not released. -/
theorem released_or_lost (h : Lives none loads events none loads') {serial : Nat}
    (hloaded : .load serial true ∈ events) :
    (events.filterMap Event.released?).count serial = 1 ∧ .lose serial ∉ events ∨
      .lose serial ∈ events ∧ .release serial ∉ events := by
  have hheld : ¬ Held serial events := by
    rw [h.held_iff]
    nofun
  rw [Held, not_and_not_right] at hheld
  obtain ⟨event, hevent, hend⟩ := List.mem_filterMap.mp (hheld hloaded)
  cases event with
  | load | call => cases hend
  | release =>
      cases hend
      left
      refine ⟨?_, fun hlost => nomatch h.end_unique hevent hlost rfl rfl⟩
      apply List.count_eq_one_of_mem (h.nodup_released (older_none _))
      exact List.mem_filterMap.mpr ⟨_, hevent, rfl⟩
  | lose =>
      cases hend
      right
      exact ⟨hevent, fun hreleased => nomatch h.end_unique hevent hreleased rfl rfl⟩

theorem of_calls (serial loads : Nat) (calls : List Call) :
    Lives (some serial) loads (calls.map (.call serial)) (some serial) loads := by
  induction calls with
  | nil => exact .nil _ _
  | cons call calls ih => exact .call call ih

end Lives

/-- What may happen to models, by what happened before and what happens later. A loader runs only
when no model is held, under a new number; calls and the end reach a model that is held, and nothing
reaches it after its end. -/
def Event.Timely (earlier : List Event) (event : Event) (later : List Event) : Prop :=
  match event with
  | .load serial _ =>
    (∀ other, ¬ Held other earlier) ∧ ∀ event ∈ earlier, event.serial ≠ serial
  | .call serial _ => Held serial earlier
  | .release serial | .lose serial =>
    Held serial earlier ∧ ∀ event ∈ later, event.serial ≠ serial

theorem Lives.timely {loads loads' : Nat} {alive' : Option Nat} {earlier later : List Event}
    {event : Event} (h : Lives none loads (earlier ++ event :: later) alive' loads') :
    event.Timely earlier later := by
  obtain ⟨middle, loads₁, hearlier, hlater⟩ := h.exists_middle
  obtain ⟨-, holder, hbefore⟩ := hearlier.older (older_none _)
  cases hlater with
  | failed _ | loaded _ =>
      refine ⟨fun other => ?_, fun event hevent => Nat.ne_of_lt (hbefore event hevent)⟩
      rw [hearlier.held_iff]
      nofun
  | call call _ => exact (hearlier.held_iff _).mpr rfl
  | ended end' hlater =>
      have hlast := (hearlier.held_iff _).mpr rfl
      have hnever := fun e (he : e ∈ later) => hlater.serial_ne (holder _ rfl) he
      cases event with
      | load | call => cases end'
      | release | lose =>
          cases end'
          exact ⟨hlast, hnever⟩

variable {β : Type}

namespace Model

variable {m : Model β}

theorem release_of_unreleased (h : m.released = false) :
    m.release = ({ m with released := true }, [.release m.serial]) := by
  rw [release, h]
  rfl

theorem drop_release (m : Model β) : m.release.1.drop = [] := by
  rw [drop]
  by_cases h : m.released = true <;> simp [release, h]

end Model

namespace Session

variable {s : Session β}

def alive (s : Session β) : Option Nat :=
  s.chat.map (·.model.serial)

/-- A session holds no model that is released. -/
def Intact (s : Session β) : Prop :=
  ∀ chat, s.chat = some chat → chat.model.released = false

theorem intact_none (h : s.chat = none) : s.Intact := by
  intro chat hchat
  rw [h] at hchat
  cases hchat

theorem close_events (h : s.Intact) : s.close.2 = s.alive.toList.map .release := by
  rw [close, alive]
  cases hchat : s.chat with
  | none => rfl
  | some chat =>
      rw [Option.toList_some, List.flatMap_singleton]
      dsimp only
      rw [Model.drop_release, Model.release_of_unreleased (h chat hchat)]
      rfl

theorem drop_events (h : s.Intact) : s.drop = s.alive.toList.map .release := by
  rw [drop, alive]
  cases hchat : s.chat with
  | none => rfl
  | some chat =>
      rw [Option.toList_some, List.flatMap_singleton, Model.drop,
        Model.release_of_unreleased (h chat hchat)]
      rfl

theorem lives_released (alive : Option Nat) (loads : Nat) :
    Lives alive loads (alive.toList.map .release) none loads := by
  cases alive with
  | none => exact .nil none loads
  | some serial => exact .ended rfl (.nil none loads)

theorem lives_close (h : s.Intact) : Lives s.alive s.loads s.close.2 none s.loads := by
  rw [close_events h]
  exact lives_released s.alive s.loads

theorem lives_drop (h : s.Intact) : Lives s.alive s.loads s.drop none s.loads := by
  rw [drop_events h]
  exact lives_released s.alive s.loads

variable [Backend β]

theorem FailsAt.lives {name : String} {directory : ModelDirectory} {stage : LoadStage}
    {reason : Backend.Error} {loads : Nat} {events : List Event}
    (h : s.FailsAt name directory stage reason loads events) :
    Lives none s.loads events none loads := by
  cases h with
  | resolve | config => exact .nil none s.loads
  | backend => exact .failed (.nil none _)
  | validate => exact .loaded (.ended rfl (.nil none _))

theorem Reloaded.lives {name : String} {directory : ModelDirectory} {response : Response β Unit}
    (h : s.Reloaded name directory response) (hintact : s.Intact) :
    Lives s.alive s.loads response.events response.session.alive response.session.loads ∧
      response.session.Intact := by
  have hclosed := lives_close hintact
  cases h with
  | failed first => exact ⟨hclosed.append first.lives, intact_none rfl⟩
  | brokeOff first => exact ⟨hclosed.append (.loaded (.ended rfl (.nil none _))), intact_none rfl⟩
  | loaded given =>
      obtain ⟨found, configured, ran, fits⟩ := given
      obtain ⟨-, rfl⟩ := Model.new_eq_ok fits
      refine ⟨hclosed.append (.loaded (.nil _ _)), fun chat hchat => ?_⟩
      cases hchat
      rfl

theorem Asks.alike {chat chat' : Chat β} {request : Request} {calls : List Call}
    (h : Asks chat request calls chat') : chat.model.Alike chat'.model := by
  cases h with
  | resetChat => exact .reset _
  | prefill prefilled => exact prefilled.alike
  | decode decoded => exact decoded.alike
  | evaluate => exact ⟨rfl, rfl, rfl, rfl, rfl, rfl⟩

theorem perform_lives (hintact : s.Intact) (request : Request) :
    Lives s.alive s.loads (s.perform request).events (s.perform request).session.alive
        (s.perform request).session.loads ∧
      (s.perform request).session.Intact := by
  by_cases hreload : ∃ name directory, request = .reload name directory
  · obtain ⟨name, directory, rfl⟩ := hreload
    exact (s.reloaded_reload name directory).lives hintact
  by_cases hunload : request = .unload
  · subst hunload
    exact ⟨lives_close hintact, intact_none rfl⟩
  have hother : ∀ name directory, request ≠ .reload name directory := fun name directory heq =>
    hreload ⟨name, directory, heq⟩
  cases hchat : s.chat with
  | none =>
      rw [perform_of_unloaded hchat hother hunload]
      exact ⟨.nil _ _, hintact⟩
  | some chat =>
      obtain ⟨calls, chat', hasks, hevents, hsession⟩ := exists_asks hchat hother hunload
      have halike := hasks.alike
      have hcalls := Lives.of_calls chat.model.serial s.loads calls
      rw [hevents, hsession, alive, alive, hchat, Option.map_some, Option.map_some, halike.serial]
      refine ⟨hcalls, fun other hother => ?_⟩
      cases hother
      exact halike.released.trans (hintact chat hchat)

theorem run_lives (registry : Registry (Loader β)) (entropy : Nat → Nat → UInt32)
    (requests : List Request) :
    let s := ((new registry entropy).run requests).1
    Lives none 0 ((new registry entropy).run requests).2 s.alive s.loads ∧ s.Intact := by
  apply run_induction (P := fun current past _ =>
    Lives none 0 past current.alive current.loads ∧ current.Intact)
  · exact ⟨.nil none 0, intact_none rfl⟩
  · intro current past log request ih
    obtain ⟨hpast, hintact⟩ := ih
    obtain ⟨hevents, hintact'⟩ := perform_lives hintact request
    exact ⟨hpast.append hevents, hintact'⟩

def breaksOff {α : Type} : Except Session.Error α → Bool
  | .error (.brokeOff _) => true
  | _ => false

@[simp] theorem breaksOff_map {α γ : Type} (f : α → γ) (result : Except Session.Error α) :
    breaksOff (result.map f) = breaksOff result := by
  rcases result with reason | value
  · cases reason <;> rfl
  · rfl

theorem perform_not_breaksOff {request : Request}
    (hreload : ∀ name directory, request ≠ .reload name directory) :
    breaksOff (s.perform request).result = false := by
  cases hchat : s.chat with
  | none =>
      by_cases hunload : request = .unload
      · subst hunload
        rfl
      · rw [perform_of_unloaded hchat hreload hunload]
        rfl
  | some chat =>
      cases request with
      | reload name directory => exact absurd rfl (hreload name directory)
      | unload => rfl
      | resetChat =>
          rw [perform_resetChat hchat]
          rfl
      | prefill input =>
          have hprefilled := chat.prefilled_prefill input
          rw [perform_prefill hchat, breaksOff_map]
          generalize chat.prefill input = outcome at hprefilled
          cases hprefilled <;> rfl
      | decode =>
          have hdecoded := chat.decoded_decode
          rw [perform_decode hchat, breaksOff_map]
          generalize chat.decode = outcome at hdecoded
          cases hdecoded with
          | refused refusal => rcases refusal with rfl | rfl <;> rfl
          | failed => rfl
          | sampled handed extended => cases extended <;> rfl
      | evaluate =>
          rw [perform_evaluate hchat, breaksOff_map, Chat.evaluate]
          dsimp only
          cases (Backend.evaluate chat.model.backend).1 <;> rfl

omit [Backend β] in
@[simp] theorem lose_not_mem_close (serial : Nat) : .lose serial ∉ s.close.2 := by
  intro h
  obtain ⟨k, hlose⟩ := exists_release_of_mem_close h
  cases hlose

theorem lose_mem_perform_iff {request : Request} {serial : Nat} :
    .lose serial ∈ (s.perform request).events ↔
      s.loads = serial ∧ breaksOff (s.perform request).result = true := by
  by_cases hreload : ∃ name directory, request = .reload name directory
  · obtain ⟨name, directory, rfl⟩ := hreload
    rw [perform, Response.discard, breaksOff_map]
    have hreloaded := s.reloaded_reload name directory
    generalize s.reload name directory = response at hreloaded
    cases hreloaded with
    | failed first => cases first <;> simp [breaksOff]
    | brokeOff first => simp [breaksOff, eq_comm]
    | loaded given => simp [breaksOff]
  · have hother : ∀ name directory, request ≠ .reload name directory := fun name directory heq =>
      hreload ⟨name, directory, heq⟩
    rw [perform_not_breaksOff hother]
    simp only [Bool.false_eq_true, and_false, iff_false]
    by_cases hunload : request = .unload
    · subst hunload
      exact s.lose_not_mem_close serial
    · cases hchat : s.chat with
      | none => simp [perform_of_unloaded hchat hother hunload]
      | some chat =>
          obtain ⟨calls, chat', -, hevents, -⟩ := exists_asks hchat hother hunload
          simp [hevents]

theorem lose_mem_run_iff (registry : Registry (Loader β)) (entropy : Nat → Nat → UInt32)
    (requests : List Request) (serial : Nat) :
    .lose serial ∈ ((new registry entropy).run requests).2 ↔
      ∃ entry ∈ (new registry entropy).log requests, entry.before.loads = serial ∧
        breaksOff entry.response.result = true := by
  apply run_induction (P := fun _ past log => .lose serial ∈ past ↔
    ∃ entry ∈ log, entry.before.loads = serial ∧ breaksOff entry.response.result = true)
  · simp
  · intro current past log request ih
    simp only [List.mem_append, List.mem_singleton, or_and_right, exists_or, exists_eq_left, ih,
      lose_mem_perform_iff]

theorem reload_error_iff {name : String} {directory : ModelDirectory} {e : Session.Error} :
    (s.perform (.reload name directory)).result = .error e ↔
      (∃ stage reason loads new, e = .load name stage reason ∧
        s.FailsAt name directory stage reason loads new) ∨
      ∃ reason, e = .brokeOff reason ∧ s.BreaksOff name directory reason := by
  constructor
  · intro h
    rw [perform, Response.discard] at h
    have hreloaded := s.reloaded_reload name directory
    generalize s.reload name directory = response at hreloaded h
    cases hreloaded with
    | failed first =>
        cases h
        exact .inl ⟨_, _, _, _, rfl, first⟩
    | brokeOff first =>
        cases h
        exact .inr ⟨_, rfl, first⟩
    | loaded given => cases h
  · rintro (⟨stage, reason, loads, new, rfl, hfails⟩ | ⟨reason, rfl, hbreaks⟩)
    · rw [perform, hfails.reload_eq]
      rfl
    · rw [perform, hbreaks.reload_eq]
      rfl

theorem chat_of_reload_error {name : String} {directory : ModelDirectory} {e : Session.Error}
    (h : (s.perform (.reload name directory)).result = .error e) :
    (s.perform (.reload name directory)).session.chat = none := by
  rcases reload_error_iff.mp h with ⟨stage, reason, loads, new, -, hfails⟩ | ⟨reason, -, hbreaks⟩
  · rw [perform, hfails.reload_eq]
    rfl
  · rw [perform, hbreaks.reload_eq]
    rfl

theorem breaksOff_iff {name : String} {directory : ModelDirectory} {reason : Stage.Error} :
    s.BreaksOff name directory reason ↔
      ∃ (loader : Loader β) (config : Config) (loaded : Loaded β),
        s.registry.resolve name = .ok loader ∧ Config.load directory.configFile = .ok config ∧
        loader s.loads directory config = .ok loaded ∧
        (Backend.vocabSize loaded.backend ≠ 0 ∧ loaded.tokenizer.vocabSize ≠ 0 ∧
          loaded.tokenizer.vocabSize ≤ Backend.vocabSize loaded.backend) ∧
        1 < config.sampling.repetitionPenalty ∧
        Stage.windowLimit ≤ config.sampling.penaltyWindow := by
  constructor
  · rintro ⟨found, configured, ran, chainless⟩
    exact ⟨_, _, _, found, configured, ran, Model.new_eq_chain_iff.mp chainless⟩
  · rintro ⟨loader, config, loaded, found, configured, ran, hchainless⟩
    exact .intro found configured ran (Model.new_eq_chain_iff.mpr hchainless)

end Session

/-- Every model that a loader gave is released once, at the latest when nothing holds the session
any more, unless the reload that it was loaded for broke off: then it is never released. Nothing
reaches it from its end on. At any moment at most one is held, and after a call it is the one that
the session holds. A reload fails at the first step that does, or breaks off because the penalty
looks back over too many tokens, and then leaves no model. -/
theorem released_once [Backend β] (registry : Registry (Loader β)) (entropy : Nat → Nat → UInt32)
    (requests : List Request) :
    let fresh := Session.new registry entropy
    let s := (fresh.run requests).1
    let past := (fresh.run requests).2
    let life := past ++ s.drop
    (∀ serial, .load serial true ∈ life →
      let lost := ∃ entry ∈ fresh.log requests, entry.before.loads = serial ∧
        Session.breaksOff entry.response.result = true
      (¬ lost → (life.filterMap Event.released?).count serial = 1) ∧
        (lost → .release serial ∉ life)) ∧
    (∀ earlier event later, life = earlier ++ event :: later → event.Timely earlier later) ∧
    (∀ earlier, earlier <+: life → ∀ j k, Held j earlier → Held k earlier → j = k) ∧
    (∀ serial, Held serial past ↔ ∃ chat, s.chat = some chat ∧ chat.model.serial = serial) ∧
    (∀ name directory e, (s.perform (.reload name directory)).result = .error e →
      let response := s.perform (.reload name directory)
      (∀ serial, ¬ Held serial (past ++ response.events)) ∧
        response.session.state = .unloaded ∧ response.session.conversation = {} ∧
        response.session.usage = {}) ∧
    (∀ name directory e, (s.perform (.reload name directory)).result = .error e ↔
      (∃ stage reason loads new, e = .load name stage reason ∧
        s.FailsAt name directory stage reason loads new) ∨
      ∃ reason, e = .brokeOff reason ∧ s.BreaksOff name directory reason) ∧
    (∀ name directory stage reason loads new,
      s.FailsAt name directory stage reason loads new →
      (s.perform (.reload name directory)).events = s.alive.toList.map .release ++ new) ∧
    (∀ name directory reason, s.BreaksOff name directory reason →
      (s.perform (.reload name directory)).events =
        s.alive.toList.map .release ++ [.load s.loads true, .lose s.loads]) ∧
    (∀ name directory reason, s.BreaksOff name directory reason ↔
      ∃ (loader : Loader β) (config : Config) (loaded : Loaded β),
        s.registry.resolve name = .ok loader ∧ Config.load directory.configFile = .ok config ∧
        loader s.loads directory config = .ok loaded ∧
        (Backend.vocabSize loaded.backend ≠ 0 ∧ loaded.tokenizer.vocabSize ≠ 0 ∧
          loaded.tokenizer.vocabSize ≤ Backend.vocabSize loaded.backend) ∧
        1 < config.sampling.repetitionPenalty ∧
        Stage.windowLimit ≤ config.sampling.penaltyWindow) := by
  intro fresh s past life
  obtain ⟨hpast, hintact⟩ := Session.run_lives registry entropy requests
  have hlife : Lives none 0 life none s.loads := hpast.append (Session.lives_drop hintact)
  have hlost : ∀ serial, .lose serial ∈ life ↔
      ∃ entry ∈ fresh.log requests, entry.before.loads = serial ∧
        Session.breaksOff entry.response.result = true := by
    intro serial
    rw [← Session.lose_mem_run_iff, List.mem_append, Session.drop_events hintact]
    simp [past, fresh]
  refine ⟨?_, ?_, ?_, ?_, ?_, fun name directory e => Session.reload_error_iff, ?_, ?_,
    fun name directory reason => Session.breaksOff_iff⟩
  · intro serial hloaded lost
    have hend := hlife.released_or_lost hloaded
    rw [hlost] at hend
    rcases hend with ⟨hcount, hkept⟩ | ⟨hlose, hnever⟩
    · exact ⟨fun _ => hcount, fun hlose => absurd hlose hkept⟩
    · exact ⟨fun hkept => absurd hlose hkept, fun _ => hnever⟩
  · intro earlier event later hevents
    rw [hevents] at hlife
    exact hlife.timely
  · intro earlier hearlier j k hj hk
    exact hlife.held_unique hearlier hj hk
  · intro serial
    rw [hpast.held_iff, Session.alive, Option.map_eq_some_iff]
  · intro name directory e herror response
    have hreloaded := (Session.perform_lives hintact (.reload name directory)).1
    have hchat : response.session.chat = none := Session.chat_of_reload_error herror
    refine ⟨fun serial => ?_, ?_, ?_, ?_⟩
    · rw [(hpast.append hreloaded).held_iff, Session.alive, hchat]
      simp
    · rw [Session.state, hchat]
    · rw [Session.conversation, hchat]
      rfl
    · rw [Session.usage, hchat]
      rfl
  · intro name directory stage reason loads new hfails
    rw [← Session.close_events hintact, Session.perform, hfails.reload_eq]
    rfl
  · intro name directory reason hbreaks
    rw [← Session.close_events hintact, Session.perform, hbreaks.reload_eq]
    rfl

/-- The second model of a session that is asked for an unknown one then. -/
theorem released_once_steady :
    let tokenizer : Tokenizer :=
      { encode := fun _ => [0], tokenBytes := fun _ => [0x61], vocabSize := 1, bos := none
        eos := [] }
    let requests := [Steady.load none, Steady.load none]
    let fresh := Session.new (Steady.registry tokenizer) fun _ _ => 0
    let run := fresh.run requests
    let response := run.1.perform (.reload "other" { path := "", configFile := none })
    Held 1 run.2 ∧ ((run.2 ++ run.1.drop).filterMap Event.released?).count 1 = 1 ∧
      response.session.state = .unloaded ∧ ¬ Held 1 (run.2 ++ response.events) := by
  intro tokenizer requests fresh run response
  have hserial : run.1.chat.map (·.model.serial) = some 1 := by decide +kernel
  have hkept : (fresh.log requests).all
      (fun entry => !Session.breaksOff entry.response.result) = true := by decide +kernel
  have hfailed : response.result.isOk = false := by decide +kernel
  obtain ⟨hreleased, -, -, halive, hclosed, -⟩ :=
    released_once (Steady.registry tokenizer) (fun _ _ => 0) requests
  have hheld : Held 1 run.2 := (halive 1).mpr (Option.map_eq_some_iff.mp hserial)
  refine ⟨hheld, (hreleased 1 (List.mem_append_left _ hheld.1)).1 ?_, ?_⟩
  · rintro ⟨entry, hentry, -, hbroke⟩
    simpa [hbroke] using List.all_eq_true.mp hkept entry hentry
  · cases hresult : response.result with
    | ok report =>
        rw [hresult] at hfailed
        cases hfailed
    | error e =>
        obtain ⟨hnone, hstate, -, -⟩ := hclosed _ _ _ hresult
        exact ⟨hstate, hnone 1⟩

/-- A penalty that looks back over more tokens than memory can hold: the model was given, and is
never released. -/
theorem lost_of_greatest_window :
    let tokenizer : Tokenizer :=
      { encode := fun _ => [0], tokenBytes := fun _ => [0x61], vocabSize := 1, bos := none
        eos := [] }
    let configFile :=
      File.ofText "\x7b\"repetition_penalty\":2,\"penalty_window\":18446744073709551615\x7d"
    let run := (Session.new (Steady.registry tokenizer) fun _ _ => 0).run [Steady.load configFile]
    let life := run.2 ++ run.1.drop
    .load 0 true ∈ life ∧ (life.filterMap Event.released?).count 0 = 0 := by
  intro tokenizer configFile run life
  let fresh := Session.new (Steady.registry tokenizer) fun _ _ => 0
  have hbroke : Session.breaksOff (fresh.perform (Steady.load configFile)).result = true := by
    decide +kernel
  have hlife : life = [.load 0 true, .lose 0] := by
    cases hresult : (fresh.perform (Steady.load configFile)).result with
    | ok report =>
        rw [hresult] at hbroke
        cases hbroke
    | error e =>
        rcases Session.reload_error_iff.mp hresult with
          ⟨stage, reason, loads, new, rfl, -⟩ | ⟨reason, -, hbreaks⟩
        · rw [hresult] at hbroke
          cases hbroke
        · simp only [life, run, Session.run, Session.perform, Steady.load]
          rw [hbreaks.reload_eq]
          rfl
  rw [hlife]
  exact ⟨List.mem_cons_self, rfl⟩

end Dialogue
