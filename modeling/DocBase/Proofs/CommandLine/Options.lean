import DocBase.CommandLine.Options

namespace DocBase.CommandLine

namespace Given

/-- Arguments that are options to the last, and what is given behind them. -/
inductive Reads : Given → List String → Given → Prop
  | done (g : Given) : Reads g [] g
  | flag {g g' : Given} {arg : String} {rest : List String} : Argument.ofString arg = .flag →
    g.pretty = false → Reads { g with pretty := true } rest g' → Reads g (arg :: rest) g'
  | joined {g next g' : Given} {arg value : String} {name : Name} {rest : List String} :
    Argument.ofString arg = .valued name (some value) → g.set? name value = some next →
    Reads next rest g' → Reads g (arg :: rest) g'
  | parted {g next g' : Given} {arg value : String} {name : Name} {rest : List String} :
    Argument.ofString arg = .valued name .none → looksLikeOption value = false →
    g.set? name value = some next → Reads next rest g' → Reads g (arg :: value :: rest) g'

theorem Reads.readArguments?_append {g g' : Given} {options : List String}
    (h : Reads g options g') (rest : List String) :
    readArguments? g (options ++ rest) = readArguments? g' rest := by
  induction h with
  | done => rfl
  | flag harg hp _ ih =>
    rw [List.cons_append, readArguments?.eq_def]
    simp only [harg, hp]
    exact ih
  | joined harg hset _ ih =>
    rw [List.cons_append, readArguments?.eq_def]
    simp only [harg, hset]
    exact ih
  | parted harg hvalue hset _ ih =>
    rw [List.cons_append, List.cons_append, readArguments?.eq_def]
    simp only [harg, hvalue, hset]
    exact ih

end Given

theorem readArguments?_shell (g : Given) : readArguments? g ["shell"] = some (g, .shell) := rfl

theorem readArguments?_query (g : Given) (text : String) :
    readArguments? g ["query", "--", text] = some (g, .query text) := rfl

theorem readOptions?_query {environment : Option String} {options : List String} {g : Given}
    {o : Options} (h : Given.Reads .none options g)
    (ho : readOptions? environment (options ++ ["shell"]) = some o) (text : String) :
    o.command = .shell ∧ readOptions? environment (options ++ ["query", "--", text]) =
      some { o with command := .query text } := by
  rw [readOptions?, h.readArguments?_append, readArguments?_shell] at ho
  rw [readOptions?, h.readArguments?_append, readArguments?_query]
  simp only [Option.bind_eq_bind, Option.bind_some] at ho ⊢
  split at ho <;> cases ho <;> exact ⟨rfl, rfl⟩

end DocBase.CommandLine
