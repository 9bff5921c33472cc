import FsExt.Sys.Sessions

set_option autoImplicit false

namespace Sys

section
variable {Op : Type} {Answer : Op → Type} {α σ : Type}

inductive Partial (sem : Program.Semantics Op Answer σ) (body : Program Op Answer α) (entry : σ) :
    Program Op Answer α → σ → Prop where
  | here : Partial sem body entry body entry
  | further (op : Op) (next : Answer op → Program Op Answer α) (now later : σ) (answer : Answer op)
      (before : Partial sem body entry (.call op next) now) (step : sem op now answer later) :
      Partial sem body entry (next answer) later

inductive Serial (sem : Program.Semantics Op Answer σ) (start : σ) :
    List (Program Op Answer α × α) → σ → Prop where
  | nil : Serial sem start [] start
  | snoc (finished : List (Program Op Answer α × α)) (body : Program Op Answer α) (value : α) (now later : σ)
      (before : Serial sem start finished now) (run : Partial sem body now (.ret value) later) :
      Serial sem start (finished ++ [(body, value)]) later

def Reads (sem : Program.Semantics Op Answer σ) (program : Program Op Answer α) (now : σ) : Prop :=
  Program.Ensures sem (fun _ same => same = now) program now fun _ same => same = now

theorem reads_step (sem : Program.Semantics Op Answer σ) (op : Op) (next : Answer op → Program Op Answer α)
    (now later : σ) (answer : Answer op) (reads : Program.Ensures sem (fun _ same => same = now) (.call op next) now
      fun _ same => same = now) (step : sem op now answer later) : later = now ∧ Reads sem (next answer) now := by
  have rest := reads.2 answer later step
  have same : later = now := by
    cases at_ : next answer with
    | ret value =>
        rw [at_] at rest
        exact rest
    | call op' next' =>
        rw [at_] at rest
        exact rest.1
  subst later
  exact ⟨rfl, rest⟩

end

structure Section (Op : Type) (Answer : Op → Type) (α σ : Type) where
  writes : Bool
  body : Program Op Answer α
  entry : σ
  rest : Program Op Answer α

-- Parties of a service that, between their calls, run sections on a store they
-- share. The finished sections are kept in order.
structure Site (D Own Call Op : Type) (Answer : Op → Type) (Result View WorkOp : Type) (WorkAnswer : WorkOp → Type)
    (α σ : Type) where
  service : Service D Own Call Op Answer Result View
  store : σ
  inside : D → Option (Section WorkOp WorkAnswer α σ)
  finished : List (Program WorkOp WorkAnswer α × α)

namespace Site

section
variable {D Own Call Op : Type} {Answer : Op → Type} {Result View WorkOp : Type} {WorkAnswer : WorkOp → Type}
  {α σ : Type} [DecidableEq D]

-- `may view writes` lets a party with this view enter a section, one that writes
-- or one that only reads. It makes no call of the service while inside.
inductive Step (api : Interface Call Op Answer Result View)
    (allowed : Service D Own Call Op Answer Result View → D → Call → Prop)
    (sem : D → Program.Semantics Op Answer (D → Own)) (work : Program.Semantics WorkOp WorkAnswer σ)
    (may : View → Bool → Prop) (site : Site D Own Call Op Answer Result View WorkOp WorkAnswer α σ) :
    Site D Own Call Op Answer Result View WorkOp WorkAnswer α σ → Prop where
  | serves (service : Service D Own Call Op Answer Result View)
      (step : Service.Step api (fun now d call => allowed now d call ∧ site.inside d = none) sem site.service service) :
      Step api allowed sem work may site { site with service := service }
  | enters (d : D) (view : View) (writes : Bool) (body : Program WorkOp WorkAnswer α)
      (idle : site.service.party d = .idle view) (outside : site.inside d = none) (entitled : may view writes)
      (reads : writes = false → ∀ now, Reads work body now) :
      Step api allowed sem work may site
        { site with inside := Function.update site.inside d (some ⟨writes, body, site.store, body⟩) }
  | works (d : D) (writes : Bool) (body : Program WorkOp WorkAnswer α) (entry : σ) (op : WorkOp)
      (next : WorkAnswer op → Program WorkOp WorkAnswer α) (answer : WorkAnswer op) (store : σ)
      (busy : site.inside d = some ⟨writes, body, entry, .call op next⟩) (step : work op site.store answer store) :
      Step api allowed sem work may site
        { site with store := store,
                    inside := Function.update site.inside d (some ⟨writes, body, entry, next answer⟩) }
  | leaves (d : D) (writes : Bool) (body : Program WorkOp WorkAnswer α) (entry : σ) (value : α)
      (busy : site.inside d = some ⟨writes, body, entry, .ret value⟩) :
      Step api allowed sem work may site
        { site with inside := Function.update site.inside d none, finished := site.finished ++ [(body, value)] }

def Reachable (api : Interface Call Op Answer Result View)
    (allowed : Service D Own Call Op Answer Result View → D → Call → Prop)
    (sem : D → Program.Semantics Op Answer (D → Own)) (work : Program.Semantics WorkOp WorkAnswer σ)
    (may : View → Bool → Prop) (start site : Site D Own Call Op Answer Result View WorkOp WorkAnswer α σ) : Prop :=
  Relation.ReflTransGen (Step api allowed sem work may) start site

-- The finished sections ran one after another, and everybody inside began where
-- they ended and has met no change but his own.
def Serialised (work : Program.Semantics WorkOp WorkAnswer σ) (start : σ)
    (site : Site D Own Call Op Answer Result View WorkOp WorkAnswer α σ) : Prop :=
  ∃ now, Serial work start site.finished now ∧
    (∀ d here, site.inside d = some here → here.entry = now ∧ Partial work here.body now here.rest site.store) ∧
    ((∀ d here, site.inside d = some here → here.writes = false) → site.store = now)

def Excludes (api : Interface Call Op Answer Result View)
    (allowed : Service D Own Call Op Answer Result View → D → Call → Prop)
    (sem : D → Program.Semantics Op Answer (D → Own)) (may : View → Bool → Prop)
    (start : Service D Own Call Op Answer Result View) : Prop :=
  ∀ service, Service.Reachable api allowed sem start service → ∀ d e, d ≠ e → ∀ view view' writes,
    service.party d = .idle view → service.party e = .idle view' → may view true → ¬ may view' writes

structure Orderly (api : Interface Call Op Answer Result View)
    (allowed : Service D Own Call Op Answer Result View → D → Call → Prop)
    (sem : D → Program.Semantics Op Answer (D → Own)) (work : Program.Semantics WorkOp WorkAnswer σ)
    (may : View → Bool → Prop) (start site : Site D Own Call Op Answer Result View WorkOp WorkAnswer α σ) :
    Prop where
  reached : Service.Reachable api allowed sem start.service site.service
  entitled : ∀ d here, site.inside d = some here → ∃ view, site.service.party d = .idle view ∧ may view here.writes
  reads : ∀ d here, site.inside d = some here → here.writes = false → Reads work here.rest site.store
  serial : Serialised work start.store site

variable (api : Interface Call Op Answer Result View)
  (allowed : Service D Own Call Op Answer Result View → D → Call → Prop)
  (sem : D → Program.Semantics Op Answer (D → Own)) (work : Program.Semantics WorkOp WorkAnswer σ)
  (may : View → Bool → Prop)

theorem step_allowed (limits : D → Prop) (now after : Service D Own Call Op Answer Result View)
    (step : Service.Step api (fun now d call => allowed now d call ∧ limits d) sem now after) :
    Service.Step api allowed sem now after := by
  cases step with
  | begins d call before idle allows => exact .begins d call before idle allows.1
  | asks d call before op next answer table busy answered => exact .asks d call before op next answer table busy answered

theorem step_idle (limits : D → Prop) (now after : Service D Own Call Op Answer Result View)
    (step : Service.Step api (fun now d call => allowed now d call ∧ limits d) sem now after) (e : D) (view : View)
    (idle : now.party e = .idle view) (kept : ¬ limits e) : after.party e = .idle view := by
  cases step with
  | begins d call before idle' allows =>
      have different : e ≠ d := fun same => kept (same ▸ allows.2)
      simp only [Function.update_of_ne different]
      exact idle
  | asks d call before op next answer table busy answered =>
      have different : e ≠ d := by
        intro same
        rw [same, busy] at idle
        cases idle
      simp only [Function.update_of_ne different]
      exact idle

theorem writer_alone (start site : Site D Own Call Op Answer Result View WorkOp WorkAnswer α σ)
    (excludes : Excludes api allowed sem may start.service) (orderly : Orderly api allowed sem work may start site)
    (d e : D) (different : d ≠ e) (here there : Section WorkOp WorkAnswer α σ) (atD : site.inside d = some here)
    (atE : site.inside e = some there) : here.writes = false := by
  obtain ⟨view, idle, entitled⟩ := orderly.entitled d here atD
  obtain ⟨view', idle', entitled'⟩ := orderly.entitled e there atE
  by_contra writes
  rw [Bool.not_eq_false] at writes
  rw [writes] at entitled
  exact excludes site.service orderly.reached d e different view view' there.writes idle idle' entitled entitled'

theorem inside_update (inside : D → Option (Section WorkOp WorkAnswer α σ)) (d e : D)
    (here there : Section WorkOp WorkAnswer α σ) (at_ : Function.update inside d (some here) e = some there) :
    (e = d ∧ there = here) ∨ (e ≠ d ∧ inside e = some there) := by
  by_cases same : e = d
  · subst e
    rw [Function.update_self] at at_
    exact .inl ⟨rfl, (Option.some.inj at_).symm⟩
  · rw [Function.update_of_ne same] at at_
    exact .inr ⟨same, at_⟩

theorem orderly_serves (start site : Site D Own Call Op Answer Result View WorkOp WorkAnswer α σ)
    (orderly : Orderly api allowed sem work may start site) (service : Service D Own Call Op Answer Result View)
    (step : Service.Step api (fun now d call => allowed now d call ∧ site.inside d = none) sem site.service service) :
    Orderly api allowed sem work may start { site with service := service } where
  reached := orderly.reached.tail (step_allowed api allowed sem _ _ _ step)
  entitled d here inside := by
    obtain ⟨view, idle, entitled⟩ := orderly.entitled d here inside
    refine ⟨view, step_idle api allowed sem _ _ _ step d view idle ?_, entitled⟩
    intro outside
    rw [outside] at inside
    cases inside
  reads := orderly.reads
  serial := orderly.serial

theorem orderly_enters (start site : Site D Own Call Op Answer Result View WorkOp WorkAnswer α σ)
    (excludes : Excludes api allowed sem may start.service) (orderly : Orderly api allowed sem work may start site)
    (d : D) (view : View) (writes : Bool) (body : Program WorkOp WorkAnswer α)
    (idle : site.service.party d = .idle view) (outside : site.inside d = none) (entitled : may view writes)
    (reads : writes = false → ∀ now, Reads work body now) :
    Orderly api allowed sem work may start
      { site with inside := Function.update site.inside d (some ⟨writes, body, site.store, body⟩) } := by
  obtain ⟨now, serial, each, free⟩ := orderly.serial
  have settled : site.store = now := by
    refine free fun e there inside => ?_
    obtain ⟨view', idle', entitled'⟩ := orderly.entitled e there inside
    have different : e ≠ d := by
      intro same
      rw [same, outside] at inside
      cases inside
    by_contra busy
    rw [Bool.not_eq_false] at busy
    rw [busy] at entitled'
    exact excludes site.service orderly.reached e d different view' view writes idle' idle entitled' entitled
  refine ⟨orderly.reached, ?_, ?_, now, serial, ?_, fun _ => settled⟩
  · intro e there inside
    rcases inside_update _ d e _ there inside with ⟨rfl, rfl⟩ | ⟨_, before⟩
    · exact ⟨view, idle, entitled⟩
    · exact orderly.entitled e there before
  · intro e there inside reader
    rcases inside_update _ d e _ there inside with ⟨rfl, rfl⟩ | ⟨_, before⟩
    · exact reads reader site.store
    · exact orderly.reads e there before reader
  · intro e there inside
    rcases inside_update _ d e _ there inside with ⟨rfl, rfl⟩ | ⟨_, before⟩
    · refine ⟨settled, ?_⟩
      rw [← settled]
      exact .here
    · exact each e there before

theorem orderly_works (start site : Site D Own Call Op Answer Result View WorkOp WorkAnswer α σ)
    (excludes : Excludes api allowed sem may start.service) (orderly : Orderly api allowed sem work may start site)
    (d : D) (writes : Bool) (body : Program WorkOp WorkAnswer α) (entry : σ) (op : WorkOp)
    (next : WorkAnswer op → Program WorkOp WorkAnswer α) (answer : WorkAnswer op) (store : σ)
    (busy : site.inside d = some ⟨writes, body, entry, .call op next⟩) (step : work op site.store answer store) :
    Orderly api allowed sem work may start
      { site with store := store,
                  inside := Function.update site.inside d (some ⟨writes, body, entry, next answer⟩) } := by
  obtain ⟨now, serial, each, free⟩ := orderly.serial
  obtain ⟨began, before⟩ := each d _ busy
  have reader : writes = false → store = site.store ∧ Reads work (next answer) site.store := fun reads =>
    reads_step work op next site.store store answer (orderly.reads d _ busy reads) step
  -- a writer has no company, and a reader changes nothing
  have others : ∀ e there, e ≠ d → site.inside e = some there → store = site.store := fun e there different inside =>
    (reader (writer_alone api allowed sem work may start site excludes orderly d e (Ne.symm different) _ there busy
      inside)).1
  refine ⟨orderly.reached, ?_, ?_, now, serial, ?_, ?_⟩
  · intro e there inside
    rcases inside_update _ d e _ there inside with ⟨rfl, rfl⟩ | ⟨_, earlier⟩
    · exact orderly.entitled e ⟨writes, body, entry, .call op next⟩ busy
    · exact orderly.entitled e there earlier
  · intro e there inside reads
    rcases inside_update _ d e _ there inside with ⟨rfl, rfl⟩ | ⟨different, earlier⟩
    · obtain ⟨same, rest⟩ := reader reads
      simp only [same]
      exact rest
    · simp only [others e there different earlier]
      exact orderly.reads e there earlier reads
  · intro e there inside
    rcases inside_update _ d e _ there inside with ⟨rfl, rfl⟩ | ⟨different, earlier⟩
    · exact ⟨began, .further op next site.store store answer before step⟩
    · simp only [others e there different earlier]
      exact each e there earlier
  · intro readers
    have reads : writes = false := readers d ⟨writes, body, entry, next answer⟩ (Function.update_self _ _ _)
    refine (reader reads).1.trans (free fun e there inside => ?_)
    by_cases same : e = d
    · subst e
      rw [busy] at inside
      cases inside
      exact reads
    · exact readers e there ((Function.update_of_ne same _ _).trans inside)

theorem orderly_leaves (start site : Site D Own Call Op Answer Result View WorkOp WorkAnswer α σ)
    (excludes : Excludes api allowed sem may start.service) (orderly : Orderly api allowed sem work may start site)
    (d : D) (writes : Bool) (body : Program WorkOp WorkAnswer α) (entry : σ) (value : α)
    (busy : site.inside d = some ⟨writes, body, entry, .ret value⟩) :
    Orderly api allowed sem work may start
      { site with inside := Function.update site.inside d none, finished := site.finished ++ [(body, value)] } := by
  obtain ⟨now, serial, each, free⟩ := orderly.serial
  obtain ⟨_, run⟩ := each d _ busy
  have earlier : ∀ e there, Function.update site.inside d none e = some there → e ≠ d ∧ site.inside e = some there := by
    intro e there inside
    by_cases same : e = d
    · subst e
      rw [Function.update_self] at inside
      cases inside
    · rw [Function.update_of_ne same] at inside
      exact ⟨same, inside⟩
  have alone := writer_alone api allowed sem work may start site excludes orderly
  refine ⟨orderly.reached, ?_, ?_, site.store, .snoc _ body value now site.store serial run, ?_, fun _ => rfl⟩
  · intro e there inside
    exact orderly.entitled e there (earlier e there inside).2
  · intro e there inside
    exact orderly.reads e there (earlier e there inside).2
  · intro e there inside
    obtain ⟨different, before⟩ := earlier e there inside
    -- two inside at once are readers, and the store is as the last writer left it
    have settled : site.store = now := by
      refine free fun f within at_ => ?_
      by_cases same : f = d
      · exact alone f e (same ▸ Ne.symm different) within there at_ before
      · exact alone f d same within _ at_ busy
    rw [settled]
    obtain ⟨began, rest⟩ := each e there before
    rw [settled] at rest
    exact ⟨began, rest⟩

theorem orderly_step (start site after : Site D Own Call Op Answer Result View WorkOp WorkAnswer α σ)
    (excludes : Excludes api allowed sem may start.service) (orderly : Orderly api allowed sem work may start site)
    (step : Step api allowed sem work may site after) : Orderly api allowed sem work may start after := by
  cases step with
  | serves service step => exact orderly_serves api allowed sem work may start site orderly service step
  | enters d view writes body idle outside entitled reads =>
      exact orderly_enters api allowed sem work may start site excludes orderly d view writes body idle outside entitled
        reads
  | works d writes body entry op next answer store busy step =>
      exact orderly_works api allowed sem work may start site excludes orderly d writes body entry op next answer store
        busy step
  | leaves d writes body entry value busy =>
      exact orderly_leaves api allowed sem work may start site excludes orderly d writes body entry value busy

theorem reachable_serialised (start site : Site D Own Call Op Answer Result View WorkOp WorkAnswer α σ)
    (excludes : Excludes api allowed sem may start.service) (nobody : ∀ d, start.inside d = none)
    (nothing : start.finished = []) (reachable : Reachable api allowed sem work may start site) :
    Serialised work start.store site := by
  have first : Orderly api allowed sem work may start start := by
    refine ⟨.refl, ?_, ?_, start.store, ?_, ?_, fun _ => rfl⟩
    · intro d here inside
      rw [nobody d] at inside
      cases inside
    · intro d here inside
      rw [nobody d] at inside
      cases inside
    · rw [nothing]
      exact .nil
    · intro d here inside
      rw [nobody d] at inside
      cases inside
  have orderly : Orderly api allowed sem work may start site := by
    induction reachable with
    | refl => exact first
    | tail _ step ih => exact orderly_step api allowed sem work may start _ _ excludes ih step
  exact orderly.serial

def opened (service : Service D Own Call Op Answer Result View) (store : σ) :
    Site D Own Call Op Answer Result View WorkOp WorkAnswer α σ where
  service := service
  store := store
  inside _ := none
  finished := []

theorem opened_serialised (service : Service D Own Call Op Answer Result View) (store : σ)
    (excludes : Excludes api allowed sem may service)
    (site : Site D Own Call Op Answer Result View WorkOp WorkAnswer α σ)
    (reachable : Reachable api allowed sem work may (opened service store) site) : Serialised work store site :=
  reachable_serialised api allowed sem work may (opened service store) site excludes (fun _ => rfl) rfl reachable

theorem reachable_serves (start site : Site D Own Call Op Answer Result View WorkOp WorkAnswer α σ)
    (reachable : Reachable api allowed sem work may start site) (outside : ∀ d, site.inside d = none)
    (service : Service D Own Call Op Answer Result View)
    (served : Service.Reachable api allowed sem site.service service) :
    Reachable api allowed sem work may start { site with service := service } := by
  induction served with
  | refl => exact reachable
  | tail _ step ih =>
      refine ih.tail (.serves _ ?_)
      cases step with
      | begins d call before idle allows => exact .begins d call before idle ⟨allows, outside d⟩
      | asks d call before op next answer table busy answered =>
          exact .asks d call before op next answer table busy answered

end

end Site

end Sys
