/-
The values that the hub knows for some open attributes: the type of a school, the context and the type of an event.
-/
namespace ContactSync

namespace Vocabulary

def schoolTypes : List String :=
  ["PRIMARY_SCHOOL", "SECONDARY_SCHOOL", "HIGH_SCHOOL", "COLLEGE", "OTHER"]

def eventContexts : List String :=
  ["CONTACT_CENTER", "WEB", "MOBILE", "ECOMMERCE", "RETAIL", "IOT", "SOCIAL", "DIGITAL_CAMPAIGN", "OTHER"]

def eventTypes : List String :=
  ["abandonedCart", "addedCompare", "addedProduct", "addedWishlist", "campaignBlacklisted", "campaignBounced",
   "campaignLinkClicked", "campaignMarkedSpam", "campaignOpened", "campaignSent", "campaignSubscribed",
   "campaignUnsubscribed", "changedSetting", "clickedLink", "closedTicket", "completedOrder", "eventInvited",
   "eventParticipated", "formCompiled", "genericActiveEvent", "genericPassiveEvent", "loggedIn", "loggedOut",
   "openedTicket", "orderShipped", "removedCompare", "removedProduct", "removedWishlist", "repliedTicket",
   "reviewedProduct", "searched", "serviceSubscribed", "serviceUnsubscribed", "viewedPage", "viewedProduct",
   "viewedProductCategory"]

end Vocabulary

end ContactSync
