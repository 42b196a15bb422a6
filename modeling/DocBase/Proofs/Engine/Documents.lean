import DocBase.Proofs.Engine.Reopening

namespace DocBase

open DirectoryStore FileSystem

/-- What is read of a table in two places: the same, or in each what a store wrote in this style,
with the identifiers renamed. -/
inductive SameDocument (ρ : RecordId → RecordId) (style : Json.Style) :
    Except IoError String → Except IoError String → Prop
  | same (found : Except IoError String) : SameDocument ρ style found found
  | renamed (records : List Record) :
    SameDocument ρ style (.ok ((Document.ofTable records).write style))
      (.ok ((Document.ofTable (records.map (Record.rename ρ))).write style))

/-- The documents of a database are the same in two places, but for a renaming of identifiers. -/
structure SameDocuments (ρ : RecordId → RecordId) (config : DirectoryConfig)
    (files files' : FileSystem) : Prop where
  catalog : files'.read (catalogPath config) = files.read (catalogPath config)
  tables {table : String} : isTableName table →
    SameDocument ρ config.style (files.read (tablePath config table))
      (files'.read (tablePath config table))

section
variable {ρ : RecordId → RecordId} {style : Json.Style} {Q : RecordId → RecordId → Prop}
  {entry entry' : Option Entry}

theorem sameDocument_of_tablesAlike (hρ : ∀ a b, Q a b → ρ a = b)
    (h : TablesAlike (· = style) Q entry entry') :
    SameDocument ρ style (readEntry entry) (readEntry entry') := by
  cases h with
  | kept => exact .same _
  | written hm hs hs' =>
    subst hs hs'
    rw [Engine.map_rename_of_matching hρ hm]
    exact .renamed _

theorem readEntry_of_catalogsAlike (h : CatalogsAlike (· = style) entry entry') :
    readEntry entry' = readEntry entry := by
  cases h with
  | kept => rfl
  | written hc hs hs' =>
    subst hc hs hs'
    rfl

end

theorem DirectoryStore.Counterparts.sameDocuments {style : Json.Style} {directory : String}
    {location : Location} {Q : RecordId → RecordId → Prop} {s s' : DirectoryStore}
    (h : Counterparts (· = style) directory location Q s s') {ρ : RecordId → RecordId}
    (hρ : ∀ a b, Q a b → ρ a = b) :
    SameDocuments ρ (.standard directory style) s.files s'.files where
  catalog := by
    change s'.files.read ((⟨directory⟩ : Path).join ".schema.json") =
      s.files.read ((⟨directory⟩ : Path).join ".schema.json")
    rw [h.left.leads.read_join_of_fits fileName_catalog h.left.fits,
      h.right.leads.read_join_of_fits fileName_catalog h.right.fits]
    exact readEntry_of_catalogsAlike h.catalog
  tables {table} hn := by
    change SameDocument ρ style (s.files.read ((⟨directory⟩ : Path).join (table ++ ".json")))
      (s'.files.read ((⟨directory⟩ : Path).join (table ++ ".json")))
    have hname : FileName (table ++ ".json") := fileName_of_isTableName hn
    by_cases hf : Fits ⟨directory⟩ (table ++ ".json")
    · rw [h.left.leads.read_join_of_fits hname hf, h.right.leads.read_join_of_fits hname hf]
      exact sameDocument_of_tablesAlike hρ (h.tables (room_eq_ok_iff.2 ⟨hn, hf⟩))
    · rw [h.left.leads.read_join_of_not_fits hname hf, h.right.leads.read_join_of_not_fits hname hf]
      exact .same _

/-- Two courses of a database that come to the same leave the same documents, once the identifiers
that the one gave out are renamed to those of the other. -/
theorem Engine.Trace.Mirrors.sameDocuments {style : Json.Style} {directory : String}
    {location : Location} {K : RecordId → Prop} {p t : Engine.Trace}
    (h : Engine.Trace.Mirrors (· = style) directory location (Known K) p t)
    (hp : p.drawn.Nodup) (ht : t.drawn.Nodup)
    (hnew : ∀ id, id ∈ p.drawn ∨ id ∈ t.drawn → ¬ K id) :
    ∃ ρ : Equiv.Perm RecordId, p.drawn.map ρ = t.drawn ∧
      (∀ id, id ∉ p.drawn → id ∉ t.drawn → ρ id = id) ∧
        SameDocuments ρ (.standard directory style) p.store.files t.store.files := by
  obtain ⟨ρ, hρ, hfixed⟩ := exists_perm_map_eq h.length hp ht
  refine ⟨ρ, hρ, hfixed, h.stores.sameDocuments ?_⟩
  rintro a b (⟨rfl, hk⟩ | hab)
  · exact hfixed a (fun hm => hnew a (.inl hm) hk) fun hm => hnew a (.inr hm) hk
  · exact eq_of_mem_zip_map hρ hab

end DocBase
