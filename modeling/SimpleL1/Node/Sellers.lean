import SimpleL1.Node.Settlement

/-!
# Marketplace sellers

Sellers and listings are records of the marketplace, merged under their id.
`refreshSellerActivation` recomputes the checklist of a seller in place, and
`activateSeller` refreshes before it decides whether the seller may launch.
-/

namespace SimpleL1.Node

open SimpleL1.Js SimpleL1.Lib.Effect

/-- `String(e || '').trim()`. -/
def trimmed (e : Option Json) : JsM String := trim <$> strOrEmpty e

/-- `s || null`. -/
def textOrNull (s : String) : Json := if s = "" then .null else .str s

def dropDashes (cs : List Char) : List Char := cs.dropWhile (· == '-')

def isSlugChar (c : Char) : Bool := c.isDigit || ('a' ≤ c && c ≤ 'z')

def slugify (p : Platform) (value : Option Json) : JsM String := do
  let text ← trimmed value
  let marked := replaceRuns isSlugChar '-' (p.lower text).toList
  let slug := ((dropDashes (dropDashes marked).reverse).reverse).take 48
  return if slug.isEmpty then "seller" else String.ofList slug

def stableId (p : Platform) (tag : String) (parts : Json) : Json :=
  .str (tag ++ "_" ++ sliceTo 16 (p.sha256 (String.ofList parts.text)))

def normalizeSeller (p : Platform) (input : Fields) (now : Number) : JsM Fields := do
  let displayName ← trimmed (or (input.get "display_name")
    (or (input.get "name") (input.get "store_name")))
  throwUnless (displayName ≠ "") (.error "seller display_name is required")
  let identity ← trimmed (or (input.get "entity_l1_address") (input.get "identity"))
  let slug ← slugify p (or (input.get "slug") (some (.str displayName)))
  let contact ← trimmed (input.get "contact")
  let payout_hint ← trimmed (input.get "payout_hint")
  let categories ← match input.get "categories" with
    | some (.arr xs) => xs.mapM Json.toStr
    | _ => pure []
  let status ← lowerOf p (input.get "status") "draft"
  let created_at ← orNow p (input.get "created_at") now
  let updated_at ← toISOString p now
  return [("seller_id", orElse (input.get "seller_id")
      (stableId p "seller" (.obj [("slug", .str slug), ("identity", textOrNull identity)]))),
    ("object_type", .str "MarketplaceSeller"), ("display_name", .str displayName),
    ("slug", .str slug), ("entity_l1_address", textOrNull identity),
    ("contact", textOrNull contact), ("payout_hint", textOrNull payout_hint),
    ("categories", .arr ((categories.take 8).map .str)), ("status", .str status),
    ("created_at", created_at), ("updated_at", .str updated_at),
    ("activation", .obj [("state", .str "not_ready"),
      ("checklist", .obj [("identity_ready", .bool (identity ≠ "")), ("profile_ready", .bool true),
        ("listing_ready", .bool false), ("payout_ready", .bool (truthy (input.get "payout_hint")))])])]

def normalizeListing (p : Platform) (input : Fields) (now : Number) : JsM Fields := do
  let sellerId ← trimmed (input.get "seller_id")
  let title ← trimmed (or (input.get "title") (input.get "name"))
  throwUnless (sellerId ≠ "" && title ≠ "") (.error "seller_id and title are required")
  let price ← trimmed (input.get "price")
  let currency ← toStr (or (input.get "currency") (some (.str "USD")))
  let currency := p.upper (trim currency)
  let description ← trimmed (input.get "description")
  let category ← trim <$> toStr (or (input.get "category") (some (.str "digital")))
  let delivery_mode ← trim <$> toStr (or (input.get "delivery_mode") (some (.str "manual")))
  let status ← lowerOf p (input.get "status") "draft"
  let created_at ← orNow p (input.get "created_at") now
  let updated_at ← toISOString p now
  return [("listing_id", orElse (input.get "listing_id")
      (stableId p "listing" (.obj [("sellerId", .str sellerId), ("title", .str title),
        ("price", .str price), ("currency", .str currency)]))),
    ("object_type", .str "MarketplaceListing"), ("seller_id", .str sellerId), ("title", .str title),
    ("description", .str description), ("category", .str category), ("price", .str price),
    ("currency", .str currency), ("delivery_mode", .str delivery_mode), ("status", .str status),
    ("created_at", created_at), ("updated_at", .str updated_at)]

/-- `candidate.seller_id === sellerId`. -/
def isSeller (sellerId : Option Json) (candidate : Fields) : Bool :=
  sameRef (candidate.get "seller_id") sellerId

/-- Which parts of a launch the seller has ready. -/
def launchChecklist (seller : Fields) (listings : List Fields) : List (String × Bool) :=
  [("identity_ready", truthy (seller.get "entity_l1_address")),
    ("profile_ready", truthy (seller.get "display_name") && truthy (seller.get "slug")),
    ("listing_ready", listings.any fun listing =>
      strictEq (listing.get "status") (some (.str "active"))
        || strictEq (listing.get "status") (some (.str "draft"))),
    ("payout_ready", truthy (seller.get "payout_hint"))]

def isReady (checklist : List (String × Bool)) : Bool := checklist.all (·.2)

/-- The listings of a seller. -/
def listingsOf (ledger : Ledger) (sellerId : Option Json) : List Fields :=
  (ledger.stores .marketplace_listings).filter (isSeller sellerId)

/-- The seller record with its activation recomputed at the time `now`. -/
def refreshed (seller : Fields) (checklist : List (String × Bool)) (now : String) : Fields :=
  let ready := isReady checklist
  let seller := seller.set "activation" (.obj [
    ("state", .str (if ready then "ready_to_launch" else "needs_setup")),
    ("checklist", .obj (checklist.map fun c => (c.1, .bool c.2))), ("checked_at", .str now)])
  let draft := strictEq (seller.get "status") (some (.str "draft"))
  let seller := assign seller "status" (if ready && draft then some (.str "ready")
    else seller.get "status")
  seller.set "updated_at" (.str now)

/-- The record of the seller as its activation stands now, unless there is no such seller. -/
def refreshOf (p : Platform) (ledger : Ledger) (sellerId : Option Json) (now : Number) :
    JsM (Option Fields) :=
  match (ledger.stores .marketplace_sellers).find? (isSeller sellerId) with
  | none => return none
  | some seller => do
    let checked_at ← toISOString p now
    return some (refreshed seller (launchChecklist seller (listingsOf ledger sellerId)) checked_at)

/-- The record of the seller becomes `seller`. -/
def putSeller (sellerId : Option Json) (seller : Fields) : LedgerM Unit := do
  let sellers ← readStore .marketplace_sellers
  writeStore .marketplace_sellers (updateFirst (isSeller sellerId) (fun _ => seller) sellers)

def refreshSellerActivation (p : Platform) (sellerId : Option Json) (now : Number) :
    LedgerM (Option Fields) := do
  match ← reading fun ledger => refreshOf p ledger sellerId now with
  | none => return none
  | some seller =>
    putSeller sellerId seller
    return some seller

/-- `seller.activation.state`. -/
def activationState (seller : Fields) : Option Json :=
  (seller.get "activation").bind (·.prop "state")

/-- The record of a seller that is active from now on. -/
def launched (seller : Fields) (now : String) : Fields :=
  ((seller.set "status" (.str "active")).set "activated_at" (.str now)).set "updated_at" (.str now)

def activateSeller (p : Platform) (sellerId : Option Json) (now : Number) : LedgerM Unit := do
  match ← refreshSellerActivation p sellerId now with
  | none => throw (.error "seller_not_found")
  | some seller =>
    if !strictEq (activationState seller) (some (.str "ready_to_launch")) then
      throw (.error "seller_not_ready")
    else
      let activated_at ← toISOString p now
      putSeller sellerId (launched seller activated_at)

def upsertSeller (p : Platform) (input : Fields) (now : Number) : LedgerM Unit := do
  let seller ← normalizeSeller p input now
  upsertByKey .marketplace_sellers "seller_id" seller
  let _ ← refreshSellerActivation p (seller.get "seller_id") now

def upsertListing (p : Platform) (input : Fields) (now : Number) : LedgerM Unit := do
  let listing ← normalizeListing p input now
  let sellers ← readStore .marketplace_sellers
  if (sellers.find? (isSeller (listing.get "seller_id"))).isSome then
    upsertByKey .marketplace_listings "listing_id" listing
    let _ ← refreshSellerActivation p (listing.get "seller_id") now
  else throw (.error "seller_not_found")

end SimpleL1.Node
