import AioAwsBatch.Payload
import AioAwsBatch.Job
import AioAwsBatch.Store
import AioAwsBatch.StoreLaws
import AioAwsBatch.Manager
import AioAwsBatch.ManagerRun
import AioAwsBatch.System
import AioAwsBatch.Durability
import AioAwsBatch.Progress
import AioAwsBatch.Recovery
import AioAwsBatch.RetryLoop
import AioAwsBatch.Waiter
import AioAwsBatch.Outcomes
import AioAwsBatch.Submissions
import AioAwsBatch.EntryPoints
import AioAwsBatch.Termination
import AioAwsBatch.Attempts
import AioAwsBatch.Policy
