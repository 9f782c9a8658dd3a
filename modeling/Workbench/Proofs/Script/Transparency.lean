/-
A script does not notice that it is suspended and taken up again.

A chain is a ride that ends in a suspension, then another ride from the machine
it left, and so on until a result is none. Each ride has its own pacing, its own
breakpoints and its own requests, at any times; budget and context are the same.
Whatever the chain, its lines, its result and the time it sleeps are those of
one ride that nothing interrupts.
-/
import Workbench.Proofs.Script.Ride
import Workbench.Run.Job

namespace Workbench.Script

/-! ## Chains -/

/-- A script begun from its text, or from a machine that was suspended. -/
def begin (context : Context) (options : RunOptions) : Origin engine → Run
  | .source text => .ofSource text context options
  | .snapshot machine => .ofMachine machine context options

/-- A script run, suspended and taken up again, as often as it takes: all lines, all time slept, and the
result. -/
inductive Chain (context : Context) (budgetMs : Nat) :
    Origin engine → List String → (slept : Nat) → RunResult Machine → Prop
  | last {origin : Origin engine} {options : RunOptions} {now slept : Nat} {lines : List String}
    {result : RunResult Machine} (budget : options.budgetMs = budgetMs)
    (ride : Ride true (begin context options origin) now lines slept result) (final : result.Final) :
    Chain context budgetMs origin lines slept result
  | resumed {origin : Origin engine} {options : RunOptions} {now slept rested : Nat} {lines more : List String}
    {machine : Machine} {location : Option Location} {result : RunResult Machine}
    (budget : options.budgetMs = budgetMs)
    (ride : Ride true (begin context options origin) now lines slept (.suspended machine location))
    (rest : Chain context budgetMs (.snapshot machine) more rested result) :
    Chain context budgetMs origin (lines ++ more) (slept + rested) result

/-! ## Transparency -/

/-- The ending of a script that begins: neither the time nor anything but budget and context matters. -/
def beginEnding (context : Context) (budgetMs : Nat) : Origin engine → Ending
  | .source text => sourceEnding budgetMs context text
  | .snapshot machine => machine.ending budgetMs context

section

variable {context : Context} {budgetMs now slept : Nat} {origin : Origin engine} {options : RunOptions}
  {askable : Bool} {lines : List String} {result : RunResult Machine}

theorem begin_begins : ∀ f, begin context options origin ≠ .flying f := by
  cases origin <;> nofun

theorem begin_options : (begin context options origin).options = options := by
  cases origin <;> rfl

theorem resultEnding_final (final : result.Final) : resultEnding budgetMs context result = .at_ result := by
  cases result with
  | suspended machine location => cases final
  | _ => rfl

/-- What a script brings on a ride, with what is to come from its result, is its ending. -/
theorem Ride.begin_ending (ride : Ride askable (begin context options origin) now lines slept result)
    (budget : options.budgetMs = budgetMs) :
    beginEnding context budgetMs origin = (resultEnding budgetMs context result).after lines slept := by
  subst budget
  have timely : (begin context options origin).Timely now := (Run.timely_of_begins begin_begins now).1
  cases origin with
  | source text => exact ride.ending timely
  | snapshot machine => exact ride.ending timely

theorem Ride.begin_final (ride : Ride false (begin context options origin) now lines slept result)
    (unbroken : options.Unbroken) : result.Final := by
  refine ride.final rfl (Run.timely_of_begins begin_begins now).1 ?_
  rw [begin_options]
  exact unbroken

/-- What a chain brings is the ending of its script. -/
theorem Chain.ending (chain : Chain context budgetMs origin lines slept result) :
    result.Final ∧ beginEnding context budgetMs origin = ⟨lines, slept, result⟩ := by
  induction chain with
  | last budget ride final =>
    refine ⟨final, ?_⟩
    rw [ride.begin_ending budget, resultEnding_final final]
    simp [Ending.after, Ending.at_]
  | resumed budget ride rest ih =>
    obtain ⟨final, rest⟩ := ih
    refine ⟨final, ?_⟩
    rw [ride.begin_ending budget]
    change (beginEnding context budgetMs (.snapshot _)).after _ _ = _
    rw [rest]
    rfl

/-- Whatever a chain of suspensions brings, one run that nothing interrupts brings it too: the same result,
the same lines in the same order, and the same time slept; and no such run brings anything else. -/
theorem Chain.transparent (chain : Chain context budgetMs origin lines slept result) (options : RunOptions)
    (budget : options.budgetMs = budgetMs) (unbroken : options.Unbroken) (now : Nat) :
    (∃ time, engine.runSolo (begin context options origin) now {} = (lines, some (result, time))) ∧
      Ride false (begin context options origin) now lines slept result ∧
      ∀ {l s r}, Ride false (begin context options origin) now l s r → l = lines ∧ s = slept ∧ r = result := by
  obtain ⟨-, ending⟩ := chain.ending
  have same : ∀ {l s r}, Ride false (begin context options origin) now l s r →
      l = lines ∧ s = slept ∧ r = result := by
    intro l s r ride
    have own := ride.begin_ending budget
    rw [ending, resultEnding_final (ride.begin_final unbroken)] at own
    simp only [Ending.after, Ending.at_, List.append_nil, Nat.add_zero, Ending.mk.injEq] at own
    exact ⟨own.1.symm, own.2.1.symm, own.2.2.symm⟩
  obtain ⟨l, s, r, time, solo, ride⟩ := Run.runSolo_ride (r := begin context options origin) begin_begins now
  obtain ⟨rfl, rfl, rfl⟩ := same ride
  exact ⟨⟨time, solo⟩, ride, same⟩

end

/-! ### A nap that is broken off -/

/-- A script that sleeps and then shows a text. -/
def nap : List Statement := [⟨1, .sleep 5⟩, ⟨2, .display (.text "x")⟩]

/-- What the nap is told each time it begins. -/
def napOptions : RunOptions := { pacing := .sync, budgetMs := 1000 }

theorem parse_nap : parse "sleep 5\ndisplay \"x\"" = .ok nap := by
  have same : (match parse "sleep 5\ndisplay \"x\"" with
      | .ok p => decide (p = nap)
      | .error _ => false) = true := by
    decide +kernel
  split at same
  · next p parsed => rw [parsed, of_decide_eq_true same]
  · cases same

/-- The nap is broken off after two milliseconds, and taken up again five milliseconds later. -/
theorem nap_chain (context : Context) :
    Chain context 1000 (.source "sleep 5\ndisplay \"x\"") ["x"] 5 (.finished (.str "x")) := by
  let asleep (started left : Nat) (at_ : Option Nat) : Flight :=
    { machine := { program := nap, sleepLeft := some left, suspendedAt := at_ }
      context := context
      options := napOptions
      started := started
      waiting := .slice started left }
  have falls : (begin context napOptions (.source "sleep 5\ndisplay \"x\"")).poll 0 {} =
      ([], .pending (.flying (asleep 0 5 none)) (.onTime 5)) := by
    unfold begin Run.poll
    dsimp only
    rw [parse_nap]
    unfold Flight.proceed
    dsimp only [nap, List.getElem?_cons_zero]
    simp [asleep, nap, napOptions, Flight.used, Flight.stopsAt, sleepSlice, Wake.within, Wake.allowance]
  have stopped : (Run.flying (asleep 0 5 none)).poll 2 { paused := true } =
      ([], .ended { program := nap, sleepLeft := some 3 : Machine }.suspend) := by
    unfold Run.poll
    simp [asleep, Flight.poll, Flight.awake, Flight.proceed]
  have falls_again : (begin context napOptions
      (.snapshot { program := nap, sleepLeft := some 3, suspendedAt := some 0 })).poll 7 {} =
      ([], .pending (.flying (asleep 7 3 (some 0))) (.onTime 10)) := by
    unfold begin Run.poll
    dsimp only
    unfold Flight.proceed
    dsimp only [nap, List.getElem?_cons_zero]
    simp [asleep, nap, napOptions, Flight.used, Flight.stopsAt, sleepSlice, Wake.within, Wake.allowance]
  have wakes : (Run.flying (asleep 7 3 (some 0))).poll 10 {} = (["x"], .ended (.finished (.str "x"))) := by
    unfold Run.poll
    simp only [asleep, Flight.poll, sleepSlice, Flight.awake, Nat.reduceAdd, Nat.reduceSub, Nat.min_self, ↓reduceIte]
    unfold Flight.proceed
    dsimp only [Machine.advanced, nap, List.getElem?_cons_succ, List.getElem?_cons_zero, Nat.reduceAdd]
    unfold Flight.proceed
    simp [Machine.advanced, Machine.changed, displayed, Flight.used, Flight.stopsAt, napOptions, Command.change,
      Expr.eval]
  have broken : Ride true (begin context napOptions (.source "sleep 5\ndisplay \"x\"")) 0 [] 2
      { program := nap, sleepLeft := some 3 : Machine }.suspend :=
    .waited (fun _ => rfl) falls ⟨by decide, by decide⟩ (.ended (fun _ => rfl) stopped)
  have resumed : Ride true
      (begin context napOptions (.snapshot { program := nap, sleepLeft := some 3, suspendedAt := some 0 })) 7 ["x"] 3
      (.finished (.str "x")) :=
    .waited (fun _ => rfl) falls_again ⟨by decide, by decide⟩ (.ended (fun _ => rfl) wakes)
  exact .resumed rfl broken (.last rfl resumed trivial)

/-- Left alone, it shows the same. -/
theorem transparent_of_nap :
    ∃ time, engine.runSolo (begin (engine.makeContext { chapter := 3 }) { budgetMs := 1000 }
      (.source "sleep 5\ndisplay \"x\"")) 0 {} = (["x"], some (.finished (.str "x"), time)) :=
  ((nap_chain _).transparent { budgetMs := 1000 } rfl (.inl rfl) 0).1

end Workbench.Script
