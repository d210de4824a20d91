import Criteria.Workbench
import Criteria.Proofs.Config.Document
import Criteria.Proofs.Filter.Assembly
import Criteria.Proofs.Filter.Closed
import Criteria.Proofs.Filter.Outcome

/-!
# What workbenches hold

`Does` says what each step shows and leaves, and everything else is read off it.  A step fails for
want of filters exactly if it needs more of them than there are, and it changes their number by
what it puts back.  No step brings a blank part or a limit of zero onto the bench, so none is ever
shown, and a query that is shipped comes back up to the limit on its levels.
-/

namespace Criteria
namespace Workbench

open Criteria.Filter (Chain)

variable {bench bench' : Workbench} {s : Step} {steps : List Step} {reply : Reply}

/-! ## Chains from the stack -/

theorem takeChain?_eq_some_iff {stack rest : List Filter} {combinators : List Combinator}
    {chain : Chain Filter} :
    takeChain? stack combinators = some (chain, rest) ↔
      chain.links.map Prod.fst = combinators ∧ stack = chain.operands.reverse ++ rest := by
  constructor
  · intro h
    unfold takeChain? at h
    dsimp only at h
    split at h
    · cases h
    · rename_i hlength
      split at h
      · cases h
      · rename_i first operands hoperands
        cases h
        have hcount : operands.length = combinators.length := by
          have hlengths := congrArg List.length hoperands
          simp only [List.length_reverse, List.length_take, List.length_cons] at hlengths
          omega
        have hlinks : (combinators.zip operands).map Prod.snd = operands :=
          List.map_snd_zip (Nat.le_of_eq hcount)
        refine ⟨List.map_fst_zip (Nat.le_of_eq hcount.symm), ?_⟩
        rw [Chain.operands, hlinks, ← hoperands, List.reverse_reverse, List.take_append_drop]
  · rintro ⟨rfl, rfl⟩
    have hcount : chain.operands.reverse.length = (chain.links.map Prod.fst).length + 1 := by
      simp [Chain.operands]
    have hzip : chain.links = (chain.links.map Prod.fst).zip (chain.links.map Prod.snd) :=
      List.zip_of_prod rfl rfl
    unfold takeChain?
    dsimp only
    rw [if_neg (by simp [Chain.operands]), ← hcount, List.take_left, List.drop_left,
      List.reverse_reverse]
    show some (_, rest) = some (chain, rest)
    rw [← hzip]

theorem takeChain?_eq_none_iff {stack : List Filter} {combinators : List Combinator} :
    takeChain? stack combinators = none ↔ stack.length < combinators.length + 1 := by
  unfold takeChain?
  dsimp only
  split
  · rename_i hlength
    exact iff_of_true rfl hlength
  · rename_i hlength
    split
    · rename_i hnil
      have hcount := congrArg List.length hnil
      simp only [List.length_reverse, List.length_take, List.length_nil] at hcount
      omega
    · exact iff_of_false nofun hlength

/-! ## Single steps -/

/-- What each step shows and leaves if it succeeds. -/
inductive Does (bench : Workbench) : Step → Reply × Workbench → Prop
  | configure {document : String} {config : Config}
      (h : Config.ofDocument document = .ok config) :
      Does bench (.configure document) (.config config, { bench with config })
  | readFilter {query : String} {q : FilterQuery}
      (h : FilterQuery.parse bench.config query = .ok q) :
      Does bench (.readFilter query) (bench.push bench.stack q.filter)
  | readKeys {query : String} {keys : List SortKey}
      (h : SortKey.parse bench.config query = .ok keys) :
      Does bench (.readKeys query) (.keys keys, bench)
  | place {f : Filter} (h : f.blankPart? = none) :
      Does bench (.place f) (bench.push bench.stack f)
  | load {document : String} {f : Filter} (h : Json.decode document = .ok f) :
      Does bench (.load document) (bench.push bench.stack f)
  | join {l r : Filter} {stack : List Filter} (h : bench.stack = r :: l :: stack)
      (c : Combinator) : Does bench (.join c) (bench.push stack (.join l r c))
  | chain {chain : Chain Filter} {stack : List Filter}
      (h : bench.stack = chain.operands.reverse ++ stack) :
      Does bench (.chain (chain.links.map Prod.fst))
        (bench.push stack (chain.assemble bench.config.chainShape))
  | duplicate {f : Filter} {stack : List Filter} (h : bench.stack = f :: stack) :
      Does bench .duplicate (bench.push (f :: stack) f)
  | swap {f g : Filter} {stack : List Filter} (h : bench.stack = f :: g :: stack) :
      Does bench .swap (bench.push (f :: stack) g)
  | drop {f : Filter} {stack : List Filter} (h : bench.stack = f :: stack) :
      Does bench .drop (.depth stack.length, { bench with stack })
  | compare {f g : Filter} {stack : List Filter} (h : bench.stack = f :: g :: stack) :
      Does bench .compare (.compared (f == g), bench)
  | leaves {f : Filter} {stack : List Filter} (h : bench.stack = f :: stack) :
      Does bench .leaves (.leaves f.leaves, bench)
  | trace {f : Filter} {stack : List Filter} (h : bench.stack = f :: stack)
      (reject : Option Filter.Token) : Does bench (.trace reject) (.trace (f.trace reject), bench)
  | ship {f : Filter} {stack : List Filter} (h : bench.stack = f :: stack) (source : String) :
      Does bench (.ship source) (Workbench.ship source f, bench)

theorem check_eq_ok_iff {f g : Filter} : f.check = .ok g ↔ f.blankPart? = none ∧ f = g := by
  unfold Filter.check
  split <;> simp_all

/-- A step that first needs something else, whose error it passes on. -/
theorem bind_mapError_eq_ok_iff {ε α β : Type} {x : Except ε α} {f : ε → StepError}
    {g : α → Except StepError β} {b : β} :
    (x.mapError f >>= g) = .ok b ↔ ∃ a, x = .ok a ∧ g a = .ok b := by
  cases x with
  | ok a =>
    constructor
    · exact fun h => ⟨a, rfl, h⟩
    · rintro ⟨a', h, hg⟩
      cases h
      exact hg
  | error e =>
    constructor
    · intro h
      cases h
    · rintro ⟨a, h, -⟩
      cases h

theorem step_eq_ok_iff {result : Reply × Workbench} :
    bench.step s = .ok result ↔ Does bench s result := by
  constructor
  · intro h
    cases s with
    | configure document =>
      obtain ⟨config, hconfig, h⟩ := bind_mapError_eq_ok_iff.1 h
      cases h
      exact .configure hconfig
    | readFilter query =>
      obtain ⟨q, hq, h⟩ := bind_mapError_eq_ok_iff.1 h
      cases h
      exact .readFilter hq
    | readKeys query =>
      obtain ⟨keys, hkeys, h⟩ := bind_mapError_eq_ok_iff.1 h
      cases h
      exact .readKeys hkeys
    | place f =>
      obtain ⟨g, hg, h⟩ := bind_mapError_eq_ok_iff.1 h
      cases h
      obtain ⟨hblank, rfl⟩ := check_eq_ok_iff.1 hg
      exact .place hblank
    | load document =>
      obtain ⟨f, hf, h⟩ := bind_mapError_eq_ok_iff.1 h
      cases h
      exact .load hf
    | join c =>
      simp only [step] at h
      split at h
      · rename_i r l stack hstack
        cases h
        exact .join hstack c
      · cases h
    | chain combinators =>
      simp only [step] at h
      split at h
      · rename_i chain stack hchain
        cases h
        obtain ⟨rfl, hstack⟩ := takeChain?_eq_some_iff.1 hchain
        exact .chain hstack
      · cases h
    | duplicate =>
      simp only [step] at h
      split at h
      · rename_i f stack hstack
        cases h
        exact .duplicate hstack
      · cases h
    | swap =>
      simp only [step] at h
      split at h
      · rename_i f g stack hstack
        cases h
        exact .swap hstack
      · cases h
    | drop =>
      simp only [step] at h
      split at h
      · rename_i f stack hstack
        cases h
        exact .drop hstack
      · cases h
    | compare =>
      simp only [step] at h
      split at h
      · rename_i f g stack hstack
        cases h
        exact .compare hstack
      · cases h
    | leaves =>
      simp only [step] at h
      split at h
      · rename_i f stack hstack
        cases h
        exact .leaves hstack
      · cases h
    | trace reject =>
      simp only [step] at h
      split at h
      · rename_i f stack hstack
        cases h
        exact .trace hstack reject
      · cases h
    | ship source =>
      simp only [step] at h
      split at h
      · rename_i f stack hstack
        cases h
        exact .ship hstack source
      · cases h
  · intro h
    cases h with
    | configure h => exact bind_mapError_eq_ok_iff.2 ⟨_, h, rfl⟩
    | readFilter h => exact bind_mapError_eq_ok_iff.2 ⟨_, h, rfl⟩
    | readKeys h => exact bind_mapError_eq_ok_iff.2 ⟨_, h, rfl⟩
    | place h => exact bind_mapError_eq_ok_iff.2 ⟨_, check_eq_ok_iff.2 ⟨h, rfl⟩, rfl⟩
    | load h => exact bind_mapError_eq_ok_iff.2 ⟨_, h, rfl⟩
    | chain h => simp only [step, takeChain?_eq_some_iff.2 ⟨rfl, h⟩]
    | _ h => simp only [step, h]

/-! ## Numbers of filters -/

/-- How many filters a step needs on the stack. -/
def Step.needs : Step → Nat
  | .configure _ | .readFilter _ | .readKeys _ | .place _ | .load _ => 0
  | .duplicate | .drop | .leaves | .trace _ | .ship _ => 1
  | .join _ | .swap | .compare => 2
  | .chain combinators => combinators.length + 1

/-- How many filters a step leaves in place of those that it needs. -/
def Step.puts : Step → Nat
  | .configure _ | .readKeys _ | .drop => 0
  | .readFilter _ | .place _ | .load _ | .join _ | .chain _ | .leaves | .trace _ | .ship _ => 1
  | .duplicate | .swap | .compare => 2

theorem Does.length (h : Does bench s (reply, bench')) :
    bench'.stack.length + s.needs = bench.stack.length + s.puts := by
  cases h with
  | chain h =>
    simp [h, Chain.operands, Step.needs, Step.puts]
    omega
  | _ => simp [*, Step.needs, Step.puts]

theorem bind_mapError_ne {ε α β : Type} {x : Except ε α} {f : ε → StepError}
    {g : α → Except StepError β} (hf : ∀ e, f e ≠ .underflow) (hg : ∀ a, g a ≠ .error .underflow) :
    (x.mapError f >>= g) ≠ .error .underflow := by
  cases x with
  | ok a => exact hg a
  | error e => exact fun h => hf e (Except.error.inj h)

/-- A step fails for want of filters exactly if there are fewer than it needs. -/
theorem step_eq_underflow_iff :
    bench.step s = .error .underflow ↔ bench.stack.length < s.needs := by
  obtain ⟨config, stack⟩ := bench
  cases s with
  | configure | readFilter | readKeys | place | load =>
    exact iff_of_false (bind_mapError_ne (fun _ => nofun) fun _ => nofun) (Nat.not_lt_zero _)
  | chain combinators =>
    rw [Step.needs, ← takeChain?_eq_none_iff, step]
    cases takeChain? stack combinators with
    | none => simp
    | some taken => simp
  | _ => rcases stack with _ | ⟨f, _ | ⟨g, stack⟩⟩ <;> simp [step, Step.needs]

/-! ## What is on the bench -/

/-- Whether a bench has a valid configuration and no filter with a blank part. -/
structure IsSound (bench : Workbench) : Prop where
  valid : bench.config.isValid = true
  not_blank : ∀ f ∈ bench.stack, f.blankPart? = none

/-- Whether a reply shows nothing else.  A query that is shipped comes back unless its document
has too many levels. -/
def Reply.IsSound : Reply → Prop
  | .config c => c.isValid = true
  | .top _ f => f.blankPart? = none
  | .leaves predicates => ∀ p ∈ predicates, p.blankPart? = none
  | .shipped document back => back = Json.within (Json.nesting document) Json.maxDepth true
  | .keys _ | .depth _ | .compared _ | .trace _ => True

theorem isSound_default : IsSound {} where
  valid := rfl
  not_blank := nofun

/-- A filter that is put on the top of filters from a sound bench. -/
theorem IsSound.push (hbench : bench.IsSound) {stack : List Filter} {f : Filter}
    (hstack : ∀ g ∈ stack, g ∈ bench.stack) (hf : f.blankPart? = none) :
    (bench.push stack f).2.IsSound ∧ (bench.push stack f).1.IsSound := by
  refine ⟨⟨hbench.valid, ?_⟩, hf⟩
  exact List.forall_mem_cons.2 ⟨hf, fun g hg => hbench.not_blank g (hstack g hg)⟩

theorem isSound_ship {f : Filter} (hf : f.blankPart? = none) (source : String) :
    (ship source f).IsSound := by
  have hread := Json.decode_encode (a := (⟨.dollarFilter, source, f⟩ : FilterQuery)) hf
  show Except.map _ (Json.decode _) = _
  rw [hread]
  unfold Json.within
  split <;> simp [Except.map]

/-- A step neither brings anything else onto a sound bench nor shows it. -/
theorem Does.isSound (h : Does bench s (reply, bench')) (hbench : bench.IsSound) :
    bench'.IsSound ∧ reply.IsSound := by
  cases h with
  | configure h =>
    have hvalid := (Config.ofDocument_eq_ok_iff.1 h).2
    exact ⟨⟨hvalid, hbench.not_blank⟩, hvalid⟩
  | readFilter h =>
    exact hbench.push (fun g hg => hg) (FilterQuery.parse_not_blank_height h).1
  | readKeys h => exact ⟨hbench, trivial⟩
  | place h => exact hbench.push (fun g hg => hg) h
  | load h => exact hbench.push (fun g hg => hg) (Json.valid_of_decode h)
  | join h c =>
    have hall := hbench.not_blank
    rw [h, List.forall_mem_cons, List.forall_mem_cons] at hall
    exact hbench.push (fun g hg => by simp [h, hg])
      (Filter.blankPart?_join_eq_none_iff.2 ⟨hall.2.1, hall.1⟩)
  | chain h =>
    refine hbench.push (fun g hg => by simp [h, hg]) ?_
    exact Filter.blankPart?_assemble_eq_none (fun f hf => hbench.not_blank f (by simp [h, hf])) _
  | duplicate h =>
    exact hbench.push (fun g hg => by rwa [h]) (hbench.not_blank _ (by simp [h]))
  | swap h =>
    refine hbench.push (fun g hg => ?_) (hbench.not_blank _ (by simp [h]))
    rcases List.mem_cons.1 hg with rfl | hg
    · simp [h]
    · simp [h, hg]
  | drop h =>
    exact ⟨⟨hbench.valid, fun g hg => hbench.not_blank g (by simp [h, hg])⟩, trivial⟩
  | compare h => exact ⟨hbench, trivial⟩
  | leaves h =>
    exact ⟨hbench, Filter.blankPart?_eq_none_iff.1 (hbench.not_blank _ (by simp [h]))⟩
  | trace h reject => exact ⟨hbench, trivial⟩
  | ship h source => exact ⟨hbench, isSound_ship (hbench.not_blank _ (by simp [h])) source⟩

/-! ## Runs -/

/-- The bench behind a step.  A step that fails leaves it as it is. -/
def turn (bench : Workbench) (s : Step) : Workbench :=
  match bench.step s with
  | .ok (_, bench') => bench'
  | .error _ => bench

/-- The bench behind several steps in turn. -/
def after (bench : Workbench) (steps : List Step) : Workbench := steps.foldl turn bench

theorem turn_of_error {e : StepError} (h : bench.step s = .error e) : bench.turn s = bench := by
  rw [turn, h]

theorem turn_of_does (h : Does bench s (reply, bench')) : bench.turn s = bench' := by
  rw [turn, step_eq_ok_iff.2 h]

theorem after_cons (bench : Workbench) (s : Step) (steps : List Step) :
    bench.after (s :: steps) = (bench.turn s).after steps := rfl

theorem run_cons (bench : Workbench) (s : Step) (steps : List Step) :
    bench.run (s :: steps) = (bench.step s).map Prod.fst :: (bench.turn s).run steps := by
  rw [run, turn]
  cases bench.step s <;> rfl

/-- Each step is answered, and what the later ones answer depends on the bench alone. -/
theorem run_append (bench : Workbench) (steps steps' : List Step) :
    bench.run (steps ++ steps') = bench.run steps ++ (bench.after steps).run steps' := by
  induction steps generalizing bench with
  | nil => rfl
  | cons s steps ih => rw [List.cons_append, run_cons, run_cons, after_cons, ih, List.cons_append]

theorem length_run (bench : Workbench) (steps : List Step) :
    (bench.run steps).length = steps.length := by
  induction steps generalizing bench with
  | nil => rfl
  | cons s steps ih => rw [run_cons, List.length_cons, ih, List.length_cons]

theorem IsSound.turn (h : bench.IsSound) (s : Step) : (bench.turn s).IsSound := by
  cases hstep : bench.step s with
  | error e => rwa [turn_of_error hstep]
  | ok result =>
    have hdoes := step_eq_ok_iff.1 hstep
    rw [turn_of_does hdoes]
    exact (hdoes.isSound h).1

theorem IsSound.step (h : bench.IsSound) (hreply : (bench.step s).map Prod.fst = .ok reply) :
    reply.IsSound := by
  cases hstep : bench.step s with
  | error e =>
    rw [hstep] at hreply
    cases hreply
  | ok result =>
    rw [hstep] at hreply
    cases hreply
    exact ((step_eq_ok_iff.1 hstep).isSound h).2

/-- However many steps are taken from a sound bench, it stays sound and shows nothing else. -/
theorem IsSound.run (h : bench.IsSound) (steps : List Step) :
    (bench.after steps).IsSound ∧ ∀ reply, .ok reply ∈ bench.run steps → reply.IsSound := by
  induction steps generalizing bench with
  | nil => exact ⟨h, nofun⟩
  | cons s steps ih =>
    obtain ⟨hafter, hreplies⟩ := ih (h.turn s)
    refine ⟨hafter, fun reply hreply => ?_⟩
    rw [run_cons] at hreply
    rcases List.mem_cons.1 hreply with hreply | hreply
    · exact h.step hreply.symm
    · exact hreplies reply hreply

/-- A session begins with an empty bench. -/
theorem isSound_of_mem_run (h : .ok reply ∈ run {} steps) : reply.IsSound :=
  (isSound_default.run steps).2 reply h

/-- The steps that fail can be left out of a run. -/
theorem exists_run_of_successes (bench : Workbench) (steps : List Step) :
    ∃ kept, kept.Sublist steps ∧ bench.after kept = bench.after steps ∧
      bench.run kept = (bench.run steps).filter Except.isOk := by
  induction steps generalizing bench with
  | nil => exact ⟨[], .slnil, rfl, rfl⟩
  | cons s steps ih =>
    obtain ⟨kept, hsub, hafter, hrun⟩ := ih (bench.turn s)
    cases hstep : bench.step s with
    | error e =>
      rw [turn_of_error hstep] at hafter hrun
      refine ⟨kept, hsub.cons s, ?_, ?_⟩
      · rw [after_cons, turn_of_error hstep, hafter]
      · rw [run_cons, turn_of_error hstep, hrun, hstep]
        rfl
    | ok result =>
      refine ⟨s :: kept, hsub.cons_cons s, hafter, ?_⟩
      rw [run_cons, run_cons, hrun, hstep]
      rfl

end Workbench
end Criteria
