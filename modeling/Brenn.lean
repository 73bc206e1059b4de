import Brenn.Queue.Replay
import Brenn.Queue.Accounting
import Brenn.Messaging.Edit
import Brenn.Surface.Takeover
import Brenn.Webhook.Signature
import Brenn.Automation.Decisions
import Brenn.Store.Timestamps
import Brenn.Queue.Fates
import Brenn.Queue.Batches
import Brenn.Attach.Openings
import Brenn.Attach.SpanLosses
import Brenn.Budget.Impetus
import Brenn.Mqtt.Inbound
import Brenn.Mqtt.Publish
import Brenn.Store.Wakes
import Brenn.Surface.PeerDrops
import Brenn.Surface.Unwired
import Brenn.Surface.Solvency
import Brenn.Attach.Frames
import Brenn.Budget.TokenBucket
import Brenn.Calendar.Epoch
import Brenn.Automation.Caps
import Brenn.Ingress.Order
import Brenn.Live.Stamps
import Brenn.Mqtt.Broker
import Brenn.Attach.Mirrors
import Brenn.Approval.Bash
