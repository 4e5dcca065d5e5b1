import Provisioning.Config.Basic

/-!
# An order of recipes

Recipes are put in an order in which each comes after all recipes that its steps name.  A table
counts for each recipe the references to declared recipes that are not ordered yet.  Recipes that
wait for nothing stand in a queue.  In each turn the first of them is ordered, every reference to
it is counted down in the table, and the recipes that wait for nothing any more join the queue,
sorted by name (`State.next?`).  If a recipe can reach itself through references, some recipes
never join the queue, and there is no order.

The turns end whatever the table says, for each of them lowers `State.left`.
-/

namespace Provisioning

namespace RecipeOrder

/-- The recipes that a recipe's steps name, among the declared ones, in order and as often as they
are named. -/
def references (recipes : Named Recipe) (name : String) : List String :=
  match recipes.get? name with
  | none => []
  | some r => (r.steps.filterMap Step.recipe?).filter recipes.contains

/-- The recipes whose steps name a recipe, in order and as often as they name it. -/
def dependents (recipes : Named Recipe) (used : String) : List String :=
  recipes.names.flatMap fun name => ((references recipes name).filter (· = used)).map fun _ => name

/-- The table before anything is ordered: how many references each recipe has. -/
def tableOf (recipes : Named Recipe) : Named Int :=
  recipes.map fun name _ => (references recipes name).length

/-- Names in rising order. -/
def sorted (names : List String) : List String :=
  names.mergeSort fun a b => decide (a ≤ b)

/-- Counts down a recipe in a table.  If it waits for nothing any more, it is freed. -/
def lower (s : Named Int × List String) (name : String) : Named Int × List String :=
  match s.1.get? name with
  | none => s
  | some d => (s.1.insert name (d - 1), if d - 1 = 0 then s.2 ++ [name] else s.2)

/-- How far the ordering is. -/
structure State where
  /-- How many references of each recipe are not ordered yet.  The counts are integers, so that a
  count below zero would show. -/
  degrees : Named Int
  /-- The recipes that wait for nothing and are not ordered yet, the next one first. -/
  queue : List String
  /-- The recipes ordered so far, in order. -/
  order : List String

/-- The recipes of a table that wait for nothing, in the order of its entries. -/
def idle (degrees : Named Int) : List String :=
  (degrees.entries.filter (·.2 = 0)).map Prod.fst

/-- Before the first turn the recipes without references stand in the queue. -/
def State.start (degrees : Named Int) : State :=
  ⟨degrees, sorted (idle degrees), []⟩

/-- One turn, if the queue is not empty. -/
def State.next? (recipes : Named Recipe) (s : State) : Option State :=
  match s.queue with
  | [] => none
  | current :: queue =>
    let (degrees, free) := (dependents recipes current).foldl lower (s.degrees, [])
    some ⟨degrees, queue ++ sorted free, s.order ++ [current]⟩

/-! ### The turns end -/

/-- How many recipes of a table wait. -/
def waiting (degrees : Named Int) : Nat := degrees.entries.countP (0 < ·.2)

theorem countP_insertEntry {name : String} {d : Int} (d' : Int) {es : List (String × Int)}
    (h : es.lookup name = some d) :
    (Named.insertEntry name d' es).countP (0 < ·.2) + (if 0 < d then 1 else 0) =
      es.countP (0 < ·.2) + if 0 < d' then 1 else 0 := by
  induction es with
  | nil => simp at h
  | cons e es ih =>
    obtain ⟨k, b⟩ := e
    rw [Named.insertEntry]
    by_cases hk : k = name
    · subst hk
      rw [List.lookup_cons_self, Option.some_inj] at h
      subst h
      simp only [if_true, List.countP_cons, decide_eq_true_eq]
      omega
    · have hb : (name == k) = false := beq_false_of_ne (Ne.symm hk)
      rw [List.lookup_cons, hb] at h
      have := ih h
      simp only [if_neg hk, List.countP_cons]
      omega

/-- A recipe that stops waiting is freed. -/
theorem waiting_lower (s : Named Int × List String) (name : String) :
    waiting (lower s name).1 + (lower s name).2.length = waiting s.1 + s.2.length := by
  unfold lower
  split
  · rfl
  · next d h =>
    have := countP_insertEntry (d - 1) h
    simp only [waiting, Named.insert]
    split at this <;> split at this <;> split <;> simp <;> omega

theorem waiting_foldl_lower (names : List String) (s : Named Int × List String) :
    waiting (names.foldl lower s).1 + (names.foldl lower s).2.length =
      waiting s.1 + s.2.length := by
  induction names generalizing s with
  | nil => rfl
  | cons name names ih => rw [List.foldl_cons, ih, waiting_lower]

@[simp] theorem length_sorted (names : List String) : (sorted names).length = names.length :=
  List.length_mergeSort _

/-- How many turns are left at most: for what stands in the queue and for what waits. -/
def State.left (s : State) : Nat := s.queue.length + waiting s.degrees

theorem State.left_next? {recipes : Named Recipe} {s t : State} (h : s.next? recipes = some t) :
    t.left + 1 = s.left := by
  unfold next? at h
  split at h
  · simp at h
  · next current queue hqueue =>
    have := waiting_foldl_lower (dependents recipes current) (s.degrees, [])
    obtain rfl := Option.some.inj h
    simp only [left, hqueue, List.length_append, length_sorted, List.length_cons,
      List.length_nil] at this ⊢
    omega

/-! ### The order -/

/-- Takes turns until the queue is empty. -/
def State.last (recipes : Named Recipe) (s : State) : State :=
  match _ : s.next? recipes with
  | none => s
  | some t => t.last recipes
termination_by s.left
decreasing_by
  have := left_next? ‹_›
  omega

/-- The order to which a table of references leads, or the recipes left over. -/
def orderBy (recipes : Named Recipe) (table : Named Int) : Except (List String) (List String) :=
  let order := ((State.start table).last recipes).order
  if order.length = recipes.size then .ok order
  else .error (sorted (recipes.names.filter fun n => !order.contains n))

end RecipeOrder

/-- The order of all recipes, or the names of those that cannot be ordered. -/
def recipeOrder (recipes : Named Recipe) : Except (List String) (List String) :=
  RecipeOrder.orderBy recipes (RecipeOrder.tableOf recipes)

end Provisioning
