import Gomer.Lib.Render

/-! The native Meta Ads tools: their names, and the Marketing API call each one makes. -/
namespace Gomer.Ai

/-! Tool names -/

def metaAdsWriteToolNames : List String :=
  ["meta_ads_create_campaign", "meta_ads_update_campaign", "meta_ads_delete_campaign",
    "meta_ads_duplicate_campaign", "meta_ads_create_ad_set", "meta_ads_update_ad_set",
    "meta_ads_delete_ad_set", "meta_ads_duplicate_ad_set", "meta_ads_create_ad_creative",
    "meta_ads_create_ad", "meta_ads_update_ad", "meta_ads_delete_ad", "meta_ads_duplicate_ad"]

def metaAdsReadToolNames : List String :=
  ["meta_ads_list_ad_accounts", "meta_ads_get_insights", "meta_ads_list_campaigns",
    "meta_ads_list_ad_sets", "meta_ads_list_ads", "meta_ads_list_pages",
    "meta_ads_search_interests"]

/-- As a set: the source lists the names in the order of the tools. -/
def metaAdsToolNames : List String := metaAdsWriteToolNames ++ metaAdsReadToolNames

def metaWriteLabels : List (String × String) :=
  [("meta_ads_create_campaign", "Create campaign"), ("meta_ads_update_campaign", "Update campaign"),
    ("meta_ads_delete_campaign", "Delete campaign"),
    ("meta_ads_duplicate_campaign", "Duplicate campaign"),
    ("meta_ads_create_ad_set", "Create ad set"), ("meta_ads_update_ad_set", "Update ad set"),
    ("meta_ads_delete_ad_set", "Delete ad set"), ("meta_ads_duplicate_ad_set", "Duplicate ad set"),
    ("meta_ads_create_ad_creative", "Create ad creative"), ("meta_ads_create_ad", "Create ad"),
    ("meta_ads_update_ad", "Update ad"), ("meta_ads_delete_ad", "Delete ad"),
    ("meta_ads_duplicate_ad", "Duplicate ad")]

/-! `MetaAdsService` -/

structure InsightsParams where
  adAccountId : String
  level : Option Json
  datePreset : Option Json
  since : Option Json
  untilDate : Option Json
  fields : Option Json

/-- One call of a method; the arguments are what the caller passes on. -/
inductive MetaAdsCall where
  | listAdAccounts
  | getInsights (params : InsightsParams)
  | listCampaigns (adAccountId : String) (effectiveStatus : Option Json)
  | createCampaign (adAccountId name objective : String) (dailyBudget : Option Json)
  | updateCampaign (campaignId : String) (name status dailyBudget : Option Json)
  | deleteCampaign (campaignId : String)
  | duplicateCampaign (campaignId : String) (deepCopy renameSuffix : Option Json)
  | listAdSets (campaignId : String)
  | createAdSet (adAccountId campaignId name optimizationGoal billingEvent : String)
      (targeting : Json) (dailyBudget startTime : Option Json)
  | updateAdSet (adSetId : String) (name status dailyBudget : Option Json)
  | deleteAdSet (adSetId : String)
  | duplicateAdSet (adSetId : String) (campaignId deepCopy renameSuffix : Option Json)
  | listAds (adSetId : String)
  | createAdCreative (adAccountId name pageId link message : String)
      (headline imageUrl callToAction : Option Json)
  | createAd (adAccountId name adSetId creativeId : String)
  | updateAd (adId : String) (name status : Option Json)
  | deleteAd (adId : String)
  | duplicateAd (adId : String) (adSetId renameSuffix : Option Json)
  | listPages
  | searchInterests (query : String)

/-- `create*`, `update*`, `delete*` and `duplicate*`. -/
def MetaAdsCall.mutating : MetaAdsCall → Bool
  | .listAdAccounts | .getInsights .. | .listCampaigns .. | .listAdSets .. | .listAds ..
  | .listPages | .searchInterests .. => false
  | .createCampaign .. | .updateCampaign .. | .deleteCampaign .. | .duplicateCampaign ..
  | .createAdSet .. | .updateAdSet .. | .deleteAdSet .. | .duplicateAdSet ..
  | .createAdCreative .. | .createAd .. | .updateAd .. | .deleteAd .. | .duplicateAd .. => true

/-! Dispatch -/

/-- `String(value)`, also of a property that is not there. -/
def stringOf : Option Json → String
  | none => "undefined"
  | some value => value.toText

/-- `value ?? {}` -/
def orEmpty (value : Json) : Json := if value.isNull then .obj [] else value

/-- The call of a tool, or the error of a name that is none. -/
def dispatchMetaAdsTool (toolName : String) (input : Json) : Except String MetaAdsCall :=
  let text (key : String) : String := stringOf (input.get? key)
  let given (key : String) : Option Json := input.get? key
  match toolName with
  | "meta_ads_list_ad_accounts" => .ok .listAdAccounts
  | "meta_ads_get_insights" =>
    .ok (.getInsights ⟨text "ad_account_id", given "level", given "date_preset", given "since",
      given "until", given "fields"⟩)
  | "meta_ads_list_campaigns" =>
    .ok (.listCampaigns (text "ad_account_id") (given "effective_status"))
  | "meta_ads_create_campaign" =>
    .ok (.createCampaign (text "ad_account_id") (text "name") (text "objective")
      (given "daily_budget"))
  | "meta_ads_update_campaign" =>
    .ok (.updateCampaign (text "campaign_id") (given "name") (given "status")
      (given "daily_budget"))
  | "meta_ads_delete_campaign" => .ok (.deleteCampaign (text "campaign_id"))
  | "meta_ads_duplicate_campaign" =>
    .ok (.duplicateCampaign (text "campaign_id") (given "deep_copy") (given "rename_suffix"))
  | "meta_ads_list_ad_sets" => .ok (.listAdSets (text "campaign_id"))
  | "meta_ads_create_ad_set" =>
    .ok (.createAdSet (text "ad_account_id") (text "campaign_id") (text "name")
      (text "optimization_goal") (text "billing_event")
      (orEmpty ((given "targeting").getD .null)) (given "daily_budget") (given "start_time"))
  | "meta_ads_update_ad_set" =>
    .ok (.updateAdSet (text "ad_set_id") (given "name") (given "status") (given "daily_budget"))
  | "meta_ads_delete_ad_set" => .ok (.deleteAdSet (text "ad_set_id"))
  | "meta_ads_duplicate_ad_set" =>
    .ok (.duplicateAdSet (text "ad_set_id") (given "campaign_id") (given "deep_copy")
      (given "rename_suffix"))
  | "meta_ads_list_ads" => .ok (.listAds (text "ad_set_id"))
  | "meta_ads_create_ad_creative" =>
    .ok (.createAdCreative (text "ad_account_id") (text "name") (text "page_id") (text "link")
      (text "message") (given "headline") (given "image_url") (given "call_to_action"))
  | "meta_ads_create_ad" =>
    .ok (.createAd (text "ad_account_id") (text "name") (text "ad_set_id") (text "creative_id"))
  | "meta_ads_update_ad" => .ok (.updateAd (text "ad_id") (given "name") (given "status"))
  | "meta_ads_delete_ad" => .ok (.deleteAd (text "ad_id"))
  | "meta_ads_duplicate_ad" =>
    .ok (.duplicateAd (text "ad_id") (given "ad_set_id") (given "rename_suffix"))
  | "meta_ads_list_pages" => .ok .listPages
  | "meta_ads_search_interests" => .ok (.searchInterests (text "query"))
  | _ => .error ("Unknown Meta Ads tool: " ++ toolName)

/-- The calls that change an account are those of the write tools. -/
theorem dispatchMetaAdsTool_mutating {toolName : String} {input : Json} {call : MetaAdsCall}
    (dispatched : dispatchMetaAdsTool toolName input = .ok call) :
    call.mutating = metaAdsWriteToolNames.contains toolName := by
  unfold dispatchMetaAdsTool at dispatched
  dsimp only at dispatched
  split at dispatched
  case h_21 => cases dispatched
  all_goals
    cases dispatched
    rfl

end Gomer.Ai
