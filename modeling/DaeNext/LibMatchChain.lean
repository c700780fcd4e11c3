/-
Match chains: a flat list of tests that stands for a list of rules, each rule a
conjunction of disjunctions.

A cell is one test with its verdict on the packet at hand and a link saying what
it ends: nothing (`or`: the disjunction goes on), a disjunction (`and`: the
conjunction goes on) or a rule (`done`). The evaluator carries three flags, "this
disjunction holds", "this rule is lost" and a note for rules that decide nothing.
`eval_rules` says that on the cells of a rule list it is first match
(`DecisionList.firstMatch`) with every rule read as a conjunction of possibly
negated disjunctions.

The flags carry across cells, so everything is proved with arbitrary flags first
(`eval_block`) and read off at the clean state a rule starts in.
-/
import DaeNext.LibDecisionList

set_option autoImplicit false

namespace MatchChain

open List

variable {δ : Type*}

/-- What a cell ends. A rule without a verdict leaves a note and falls through. -/
inductive Link (δ : Type*) where
  | or
  | and
  | done (verdict : Option δ)

structure Cell (δ : Type*) where
  hit : Bool
  not : Bool
  link : Link δ

def eval : (good bad note : Bool) → List (Cell δ) → Option δ × Bool
  | _, _, note, [] => (none, note)
  | good, bad, note, cell :: cells =>
    -- a test is only looked at while it can still matter
    let good := good || (!bad && cell.hit)
    match cell.link with
    | .or => eval good bad note cells
    | .and => eval false (bad || good == cell.not) note cells
    | .done verdict =>
      if bad || good == cell.not then eval false false note cells
      else
        match verdict with
        | some d => (some d, note)
        | none => eval false false true cells

/-! ## One disjunction -/

/-- The cells of one disjunction: `link` closes it, `or` stands before. -/
def block (not : Bool) (link : Link δ) : List Bool → List (Cell δ)
  | [] => []
  | [hit] => [⟨hit, not, link⟩]
  | hit :: hits => ⟨hit, not, .or⟩ :: block not link hits

variable {hits : List Bool}

theorem block_cons (not : Bool) (link : Link δ) (hit : Bool) (h : hits ≠ []) :
    block not link (hit :: hits) = ⟨hit, not, .or⟩ :: block not link hits := by
  cases hits with
  | nil => exact absurd rfl h
  | cons a l => rfl

theorem block_append (not : Bool) (link : Link δ) (front : List Bool) (h : hits ≠ []) :
    block not link (front ++ hits) = block not .or front ++ block not link hits := by
  induction front with
  | nil => rfl
  | cons a front ih =>
    rw [cons_append, block_cons not link a (by simp [h]), ih]
    cases front with
    | nil | cons b front => rfl

/-- A block acts like one cell that hits when some member does. -/
theorem eval_block (good bad note not : Bool) (link : Link δ) (h : hits ≠ []) (rest : List (Cell δ)) :
    eval good bad note (block not link hits ++ rest)
      = eval good bad note (⟨hits.any id, not, link⟩ :: rest) := by
  induction hits generalizing good with
  | nil => exact absurd rfl h
  | cons a hits ih =>
    cases hits with
    | nil => simp [block]
    | cons b hits =>
      rw [block_cons not link a (by simp), cons_append]
      -- the first test goes into the flag, the rest into the shorter block
      have hstep : eval good bad note (⟨a, not, .or⟩ :: (block not link (b :: hits) ++ rest))
          = eval (good || (!bad && a)) bad note (block not link (b :: hits) ++ rest) := rfl
      have hflag : ((good || (!bad && a)) || (!bad && (b :: hits).any id))
          = (good || (!bad && (a :: b :: hits).any id)) := by
        cases good <;> cases bad <;> simp
      rw [hstep, ih _ (by simp)]
      simp only [eval, hflag]

/-! ## One rule -/

/-- A disjunction with its negation flag. -/
structure Clause where
  hits : List Bool
  not : Bool

def Clause.holds (clause : Clause) : Bool := clause.hits.any id != clause.not

def ruleCells (verdict : Option δ) : List Clause → List (Cell δ)
  | [] => []
  | [clause] => block clause.not (.done verdict) clause.hits
  | clause :: clauses => block clause.not .and clause.hits ++ ruleCells verdict clauses

theorem ruleCells_cons (verdict : Option δ) (clause : Clause) {clauses : List Clause} (h : clauses ≠ []) :
    ruleCells verdict (clause :: clauses)
      = block clause.not .and clause.hits ++ ruleCells verdict clauses := by
  cases clauses with
  | nil => exact absurd rfl h
  | cons c l => rfl

/-- What a rule does to the rest of the chain. -/
def afterRule (verdict : Option δ) (fires note : Bool) (rest : List (Cell δ)) : Option δ × Bool :=
  if fires then
    match verdict with
    | some d => (some d, note)
    | none => eval false false true rest
  else eval false false note rest

/-- **A rule fires when all its clauses hold.** The induction is on the clauses,
with the flag "lost" arbitrary: a lost rule stays lost. -/
theorem eval_ruleCells (verdict : Option δ) {clauses : List Clause} (hne : clauses ≠ [])
    (hhits : ∀ c ∈ clauses, c.hits ≠ []) (bad note : Bool) (rest : List (Cell δ)) :
    eval false bad note (ruleCells verdict clauses ++ rest)
      = afterRule verdict (!bad && clauses.all Clause.holds) note rest := by
  -- a rule is lost if it was, or if the clause comes out as its negation
  have hflag : ∀ (bad : Bool) (c : Clause),
      (bad || (false || (!bad && c.hits.any id)) == c.not) = !(!bad && c.holds) := by
    intro bad c
    rw [Clause.holds]
    cases bad <;> cases c.hits.any id <;> cases c.not <;> rfl
  induction clauses generalizing bad with
  | nil => exact absurd rfl hne
  | cons clause clauses ih =>
    have hclause := hhits clause mem_cons_self
    cases clauses with
    | nil =>
      rw [ruleCells, eval_block _ _ _ _ _ hclause]
      simp only [eval, hflag, afterRule, all_cons, all_nil, Bool.and_true]
      cases bad <;> cases clause.holds <;> rfl
    | cons c cs =>
      rw [ruleCells_cons verdict clause (by simp), append_assoc, eval_block _ _ _ _ _ hclause]
      -- the clause is one cell now, and it hands the flag on to the others
      have hstep : ∀ rest : List (Cell δ),
          eval false bad note (⟨clause.hits.any id, clause.not, .and⟩ :: rest)
            = eval false (!(!bad && clause.holds)) note rest := by
        intro rest
        rw [← hflag]
        rfl
      rw [hstep, ih (by simp) (fun x hx => hhits x (mem_cons_of_mem clause hx))]
      simp only [all_cons, Bool.not_not, Bool.and_assoc]

/-! ## A list of rules -/

structure Rule (δ : Type*) where
  clauses : List Clause
  verdict : Option δ

def Rule.fires (rule : Rule δ) : Bool := rule.clauses.all Clause.holds

/-- A rule that stands for something: clauses, and tests in every clause. -/
def Rule.Proper (rule : Rule δ) : Prop :=
  rule.clauses ≠ [] ∧ ∀ c ∈ rule.clauses, c.hits ≠ []

/-- **A chain is a decision list.** The cells of a list of rules decide as the
rules do by first match, and where no rule decides the chain goes on. -/
theorem eval_rules (rules : List (Rule δ)) (hproper : ∀ r ∈ rules, r.Proper) (note : Bool)
    (rest : List (Cell δ)) :
    eval false false note (rules.flatMap (fun r => ruleCells r.verdict r.clauses) ++ rest)
      = match DecisionList.firstMatch Rule.fires Rule.verdict note rules with
        | (some d, n) => (some d, n)
        | (none, n) => eval false false n rest := by
  induction rules generalizing note with
  | nil => rfl
  | cons r rs ih =>
    have hrs := ih (fun x hx => hproper x (mem_cons_of_mem r hx))
    obtain ⟨hne, hhits⟩ := hproper r mem_cons_self
    have hfires : (!false && r.clauses.all Clause.holds) = r.fires := by
      rw [Rule.fires, Bool.not_false, Bool.true_and]
    rw [flatMap_cons, append_assoc, eval_ruleCells r.verdict hne hhits,
      hfires, DecisionList.firstMatch]
    -- the flags are down again after a rule, so the induction hypothesis applies
    by_cases hr : r.fires
    · cases hv : r.verdict with
      | some d => simp [afterRule, hr]
      | none => simp [afterRule, hr, hrs]
    · simp [afterRule, hr, hrs]

end MatchChain
