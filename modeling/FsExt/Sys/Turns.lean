import FsExt.Sys.Sessions

set_option autoImplicit false

namespace Sys

structure Event (D Op : Type) (Answer : Op → Type) where
  party : D
  op : Op
  answer : Answer op

section
variable {D Op : Type} {Answer : Op → Type} {α Own : Type}

-- How far party `d` gets with one program while the others make any system
-- calls at any time. The program may have calls left, so what holds after all
-- turns holds throughout.
inductive Turns (sem : D → Program.Semantics Op Answer (D → Own)) (d : D) :
    Program Op Answer α → (D → Own) → List (Event D Op Answer) → Program Op Answer α → (D → Own) → Prop where
  | here (program : Program Op Answer α) (table : D → Own) : Turns sem d program table [] program table
  | own (op : Op) (next : Answer op → Program Op Answer α) (table mid final : D → Own) (answer : Answer op)
      (events : List (Event D Op Answer)) (rest : Program Op Answer α) (answered : sem d op table answer mid)
      (later : Turns sem d (next answer) mid events rest final) :
      Turns sem d (.call op next) table (⟨d, op, answer⟩ :: events) rest final
  | other (program : Program Op Answer α) (table mid final : D → Own) (e : D) (op : Op) (answer : Answer op)
      (events : List (Event D Op Answer)) (rest : Program Op Answer α) (different : e ≠ d)
      (answered : sem e op table answer mid) (later : Turns sem d program mid events rest final) :
      Turns sem d program table (⟨e, op, answer⟩ :: events) rest final

def ByOthers (d : D) (events : List (Event D Op Answer)) : Prop := ∀ event ∈ events, event.party ≠ d

variable (sem : D → Program.Semantics Op Answer (D → Own)) (d : D)

theorem turns_table (safe : (D → Own) → Prop)
    (keeps : ∀ e op table answer table', safe table → sem e op table answer table' → safe table')
    (program rest : Program Op Answer α) (table final : D → Own) (events : List (Event D Op Answer))
    (turns : Turns sem d program table events rest final) (holds : safe table) : safe final := by
  induction turns with
  | here program table => exact holds
  | own op next table mid final answer events rest answered _ ih => exact ih (keeps d op table answer mid holds answered)
  | other program table mid final e op answer events rest _ answered _ ih =>
      exact ih (keeps e op table answer mid holds answered)

theorem turns_ensures (own : Program.Semantics Op Answer Own) (owned : Service.Owned sem own) (inv : Op → Own → Prop)
    (post : α → Own → Prop) (program rest : Program Op Answer α) (table final : D → Own)
    (events : List (Event D Op Answer)) (turns : Turns sem d program table events rest final)
    (ensured : Program.Ensures own inv program (table d) post) : Program.Ensures own inv rest (final d) post := by
  induction turns with
  | here program table => exact ensured
  | own op next table mid final answer events rest answered _ ih =>
      exact ih (ensured.2 answer (mid d) (owned.changes d op table answer mid answered))
  | other program table mid final e op answer events rest different answered _ ih =>
      refine ih ?_
      rw [owned.frame e op table answer mid d answered (Ne.symm different)]
      exact ensured

theorem turns_ret (own : Program.Semantics Op Answer Own) (owned : Service.Owned sem own) (value : α)
    (rest : Program Op Answer α) (table final : D → Own) (events : List (Event D Op Answer))
    (turns : Turns sem d (.ret value) table events rest final) :
    rest = .ret value ∧ ByOthers d events ∧ final d = table d := by
  generalize made : (Program.ret value : Program Op Answer α) = program at turns
  induction turns with
  | here program table => exact ⟨rfl, fun event member => absurd member List.not_mem_nil, rfl⟩
  | own => cases made
  | other program table mid final e op answer events rest different answered _ ih =>
      obtain ⟨ended, others, kept⟩ := ih made
      refine ⟨ended, List.forall_mem_cons.mpr ⟨different, others⟩, ?_⟩
      rw [kept, owned.frame e op table answer mid d answered (Ne.symm different)]

theorem turns_call (own : Program.Semantics Op Answer Own) (owned : Service.Owned sem own) (op : Op)
    (next : Answer op → Program Op Answer α) (rest : Program Op Answer α) (table final : D → Own)
    (events : List (Event D Op Answer)) (turns : Turns sem d (.call op next) table events rest final) :
    (rest = .call op next ∧ ByOthers d events ∧ final d = table d) ∨
      ∃ before met answer met' after, events = before ++ ⟨d, op, answer⟩ :: after ∧ ByOthers d before ∧
        Turns sem d (.call op next) table before (.call op next) met ∧ met d = table d ∧ sem d op met answer met' ∧
        Turns sem d (next answer) met' after rest final := by
  generalize made : Program.call op next = program at turns
  induction turns with
  | here program table => exact .inl ⟨rfl, fun event member => absurd member List.not_mem_nil, rfl⟩
  | own op' next' table mid final answer events rest answered later ih =>
      cases made
      exact .inr ⟨[], table, answer, mid, events, rfl, fun event member => absurd member List.not_mem_nil,
        .here _ _, rfl, answered, later⟩
  | other program table mid final e op' answer' events rest different answered later ih =>
      have same := owned.frame e op' table answer' mid d answered (Ne.symm different)
      rcases ih made with ⟨waits, others, kept⟩ | ⟨before, met, answer, met', after, rfl, others, turns, kept, called, rest⟩
      · exact .inl ⟨waits, List.forall_mem_cons.mpr ⟨different, others⟩, kept.trans same⟩
      · subst program
        exact .inr ⟨_ :: before, met, answer, met', after, rfl, List.forall_mem_cons.mpr ⟨different, others⟩,
          .other _ _ _ _ _ _ _ _ _ different answered turns, kept.trans same, called, rest⟩

theorem turns_others (own : Program.Semantics Op Answer Own) (owned : Service.Owned sem own)
    (allowed : Event D Op Answer → Prop) (program rest : Program Op Answer α) (table final : D → Own)
    (events : List (Event D Op Answer)) (turns : Turns sem d program table events rest final)
    (others : ByOthers d events)
    (each : ∀ e op now answer after, e ≠ d → now d = table d → sem e op now answer after → allowed ⟨e, op, answer⟩) :
    ∀ event ∈ events, allowed event := by
  induction turns with
  | here program table => exact fun event member => absurd member List.not_mem_nil
  | own op next table mid final answer events rest answered later ih => exact absurd rfl (others _ (.head _))
  | other program table mid final e op answer events rest different answered later ih =>
      have same := owned.frame e op table answer mid d answered (Ne.symm different)
      refine List.forall_mem_cons.mpr ⟨each e op table answer mid different rfl answered, ih ?_ ?_⟩
      · exact fun event member => others event (.tail _ member)
      · exact fun e op now answer after different kept => each e op now answer after different (kept.trans same)

def Begins : Program Op Answer α → (D → Own) → Program Op Answer α → (D → Own) → Prop
  | .ret _, _, _, _ => False
  | .call op next, table, rest, mid => ∃ answer, sem d op table answer mid ∧ rest = next answer

end

end Sys
