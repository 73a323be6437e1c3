import ResumeScreening.Pipeline.Notified
import ResumeScreening.Pipeline.Ranked
import ResumeScreening.Pipeline.Indexed
import ResumeScreening.Screening.Foreign
import ResumeScreening.Failures.Creates
import ResumeScreening.Failures.Uploads
import ResumeScreening.Quota.Bound
import ResumeScreening.Quota.Periods
import ResumeScreening.Tenancy.Isolation
import ResumeScreening.Subscriptions.Deliveries
import ResumeScreening.Pipeline.Delivery
import ResumeScreening.Keys.Accepted
import ResumeScreening.Gates.Closed
import ResumeScreening.Screening.Nulls
import ResumeScreening.Screening.Longer
import ResumeScreening.SignUp.Failed
import ResumeScreening.SignUp.Google
import ResumeScreening.SignUp.Passwords
import ResumeScreening.Worker.Batch
import ResumeScreening.Worker.Verdict
import ResumeScreening.Worker.Storable
import ResumeScreening.Lib.Chain
import ResumeScreening.Lib.Permits
import ResumeScreening.Sessions.Tokens
import ResumeScreening.Model.Api
import ResumeScreening.Api.Gateway
import ResumeScreening.Api.Tenants
import ResumeScreening.Api.Billing
import ResumeScreening.Reads.Answers
import ResumeScreening.Migrations.Stored
